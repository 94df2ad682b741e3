import SingEwp.LengthFramer

/-!
# The TCP adapter

`streamConn` of `client.go` over a `LengthFramer`.  `Write` cuts its argument
into chunks for `SendTCPData`; `Read` hands out the payload of the last data
frame and receives frames until it has one.  The result `none` of a read stands
for a call that waits for more bytes: the frames it has consumed stay consumed,
so calling it again is the same as its going on.
-/

namespace SingEwp

/-! ## Writing -/

@[simp] abbrev maxPayload : ℕ := maxFrameSize - 256

/-- The loop of `Write`.  Every chunk is nonempty, so the length of the argument
is fuel enough. -/
def writeChunks (P : Primitives) :
    ℕ → Bytes → ℕ → StreamProc (ℕ × Outcome EwpError Unit)
  | 0, _, written => pure (written, .ok ())
  | fuel + 1, p, written =>
      if p = [] then pure (written, .ok ())
      else do
        let chunk := p.take maxPayload
        match ← sendTCPData P chunk with
        | .ok () => writeChunks P fuel (p.drop chunk.length) (written + chunk.length)
        | failed => pure (written, failed)

/-- `Write`: the number of bytes written and how the call ended. -/
def streamWrite (P : Primitives) (p : Bytes) :
    StreamProc (ℕ × Outcome EwpError Unit) :=
  if p = [] then pure (0, .ok ()) else writeChunks P p.length p 0

/-! ## Reading -/

structure StreamConn where
  stream : SecureStream
  conn : Conn
  readBuf : Bytes := []

/-- `Recv` over the framer.  A closed stream does not touch the connection. -/
def recvFramed (P : Primitives) (c : StreamConn) :
    Option (Except EwpError Event × StreamConn) :=
  if c.stream.closed then some (.error (.io .closedPipe), c)
  else
    match framerRead c.conn with
    | none => none
    | some (msg, conn) =>
        some ((recv P (readingEnv msg) c.stream).1,
          { c with
            stream := (recv P (readingEnv msg) c.stream).2
            conn := conn })

/-- The loop of `Read` that fills `readBuf`.  Every frame takes at least four
bytes, so the number of waiting bytes bounds the passes. -/
def fillReadBuf (P : Primitives) :
    ℕ → StreamConn → Option (Except EwpError Unit) × StreamConn
  | 0, c => (none, c)
  | fuel + 1, c =>
      if c.readBuf ≠ [] then (some (.ok ()), c)
      else
        match recvFramed P c with
        | none => (none, c)
        | some (.error e, c) => (some (.error e), c)
        | some (.ok ev, c) =>
            if ev.type = frameTCPData then
              if ev.payload.bytes = [] then fillReadBuf P fuel c
              else fillReadBuf P fuel { c with readBuf := ev.payload.bytes }
            else if ev.type ∈ [framePaddingOnly, framePing, framePong] then
              fillReadBuf P fuel c
            else (some (.error (.unexpectedFrame ev.type.code)), c)

/-- `Read` into a buffer of `n` bytes: the bytes copied out. -/
def streamRead (P : Primitives) (n : ℕ) (c : StreamConn) :
    Option (Except EwpError Bytes) × StreamConn :=
  match fillReadBuf P (c.conn.pending.length + 2) c with
  | (none, c) => (none, c)
  | (some (.error e), c) => (some (.error e), c)
  | (some (.ok ()), c) =>
      (some (.ok (c.readBuf.take n)), { c with readBuf := c.readBuf.drop n })

end SingEwp
