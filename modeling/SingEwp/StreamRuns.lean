import SingEwp.SecureStream

/-!
# Runs of one secure stream

Callers of `sendFrame`, `Recv` and `Close` in any number and any interleaving,
with any arguments and any outcome of the random reads and the transport.  The
ledger ties the send context to the log: the frame handed over at position `i`
was sealed under counter `i`, and the context stands at the length of the log.
-/

namespace SingEwp

inductive Side where
  | client
  | server
  deriving DecidableEq

def newSecureStream (keys : SessionKeys) : Side → SecureStream
  | .client => newClientSecureStream keys
  | .server => newServerSecureStream keys

/-- One direction's context at a given counter. -/
def FrameAEAD.seek (f : FrameAEAD) (n : ℕ) : FrameAEAD :=
  { f with counter := UInt64.ofNat n }

/-- A log entry is the frame `fr`, sealed in context `f`. -/
structure SentFrame.SealedIn (e : SentFrame) (P : Primitives) (f : FrameAEAD)
    (fr : Frame) : Prop where
  type : fr.type = e.type
  metaBytes : fr.metaBytes = e.metaBytes
  payload : fr.payload = e.payload
  wire : e.wire = fr.wire P f

/-- The log and the send context of a stream that started in context `f`. -/
structure Ledger (P : Primitives) (f : FrameAEAD) (s : SecureStream) : Prop where
  context : s.send = f.seek s.handed.length
  frames : ∀ i (e : SentFrame), s.handed[i]? = some e →
    ∃ fr, e.SealedIn P (f.seek i) fr

/-- While the stream is open, the counters agree with the statistics. -/
def Counted (s : SecureStream) : Prop :=
  s.closed = false → s.send.counter = s.frmOut ∧ s.recv.counter = s.frmIn

theorem FrameAEAD.composeNonce_inj
    {f : FrameAEAD} {c c' : UInt64}
    (heq : f.composeNonce c = f.composeNonce c') : c = c' := by
  have hval : f.noncePrefix.val ++ putBE 8 c.toNat =
      f.noncePrefix.val ++ putBE 8 c'.toNat := congrArg Subtype.val heq
  have hnat := putBE_inj (by simpa using c.toNat_lt) (by simpa using c'.toNat_lt)
    (List.append_cancel_left hval)
  exact UInt64.toNat_inj.mp hnat

theorem FrameAEAD.seek_succ (f : FrameAEAD) (n : ℕ) :
    { f.seek n with counter := (f.seek n).counter + 1 } = f.seek (n + 1) := by
  simp [FrameAEAD.seek]

/-! ## Steps -/

theorem Ledger.emit
    {P : Primitives} {f : FrameAEAD} {s : SecureStream}
    (hledger : Ledger P f s) (cap : ℕ) (fr : Frame) :
    Ledger P f (s.emit P cap fr) where
  context := by
    simp only [SecureStream.emit, SecureStream.handOver, List.length_append,
      List.length_singleton]
    rw [hledger.context, FrameAEAD.seek_succ]
  frames := by
    intro i e he
    simp only [SecureStream.emit, SecureStream.handOver] at he
    by_cases hlt : i < s.handed.length
    · rw [List.getElem?_append_left hlt] at he
      exact hledger.frames i e he
    · rw [List.getElem?_append_right (not_lt.mp hlt)] at he
      have hlast : i - s.handed.length = 0 := by
        have hsome := (List.getElem?_eq_some_iff.mp he).1
        simpa using hsome
      have hi : i = s.handed.length := by omega
      rw [hlast] at he
      simp only [List.getElem?_cons_zero, Option.some.injEq] at he
      subst he
      exact ⟨fr, rfl, rfl, rfl, by rw [hledger.context, hi]⟩

theorem Ledger.of_eq
    {P : Primitives} {f : FrameAEAD} {s s' : SecureStream}
    (hledger : Ledger P f s) (hsend : s'.send = s.send)
    (hhanded : s'.handed = s.handed) : Ledger P f s' where
  context := by rw [hsend, hhanded, hledger.context]
  frames := by
    rw [hhanded]
    exact hledger.frames

theorem sendFrameLocked_ledger
    {P : Primitives} {f : FrameAEAD} {s : SecureStream}
    (hledger : Ledger P f s) (t : FrameType) (metaBytes payload : Bytes)
    (padLen : ℤ) (env : StreamEnv) :
    Ledger P f (sendFrameLocked P t metaBytes payload padLen env s).2 := by
  have hstep := sendFrameLocked_step P t metaBytes payload padLen env s
  generalize sendFrameLocked P t metaBytes payload padLen env s = r at hstep ⊢
  cases hstep with
  | kept outcome cap failed => exact hledger.of_eq rfl rfl
  | taken cap fr htype hmeta hpayload hsend =>
      exact (hledger.emit cap fr).of_eq rfl rfl
  | refused cap fr htype hmeta hpayload e hsend =>
      exact (hledger.emit cap fr).of_eq (by simp) (by simp)

theorem sendFrameLocked_counted
    {P : Primitives} {s : SecureStream} (hcounted : Counted s) (t : FrameType)
    (metaBytes payload : Bytes) (padLen : ℤ) (env : StreamEnv) :
    Counted (sendFrameLocked P t metaBytes payload padLen env s).2 := by
  have hstep := sendFrameLocked_step P t metaBytes payload padLen env s
  generalize sendFrameLocked P t metaBytes payload padLen env s = r at hstep ⊢
  cases hstep with
  | kept outcome cap failed => exact hcounted
  | taken cap fr htype hmeta hpayload hsend =>
      intro hopen
      obtain ⟨hsent, hreceived⟩ := hcounted hopen
      refine ⟨?_, hreceived⟩
      simp [SecureStream.countSent, SecureStream.emit, SecureStream.handOver,
        hsent]
  | refused cap fr htype hmeta hpayload e hsend =>
      intro hopen
      simp at hopen

theorem sendFrameLocked_handed
    (P : Primitives) (t : FrameType) (metaBytes payload : Bytes) (padLen : ℤ)
    (env : StreamEnv) (s : SecureStream) :
    ∃ new, (sendFrameLocked P t metaBytes payload padLen env s).2.handed =
      s.handed ++ new ∧ new.length ≤ 1 := by
  have hstep := sendFrameLocked_step P t metaBytes payload padLen env s
  generalize sendFrameLocked P t metaBytes payload padLen env s = r at hstep ⊢
  cases hstep with
  | kept outcome cap failed => exact ⟨[], by simp, by simp⟩
  | taken cap fr htype hmeta hpayload hsend =>
      exact ⟨[_], rfl, by simp⟩
  | refused cap fr htype hmeta hpayload e hsend =>
      exact ⟨[_], by rw [SecureStream.close_handed]; rfl, by simp⟩

theorem sendFrameLocked_receiver
    (P : Primitives) (t : FrameType) (metaBytes payload : Bytes) (padLen : ℤ)
    (env : StreamEnv) (s : SecureStream) :
    (sendFrameLocked P t metaBytes payload padLen env s).2.received =
        s.received ∧
      (sendFrameLocked P t metaBytes payload padLen env s).2.recv = s.recv ∧
      ((sendFrameLocked P t metaBytes payload padLen env s).2.closed = false →
        s.closed = false) := by
  have hstep := sendFrameLocked_step P t metaBytes payload padLen env s
  generalize sendFrameLocked P t metaBytes payload padLen env s = r at hstep ⊢
  cases hstep with
  | kept outcome cap failed => exact ⟨rfl, rfl, id⟩
  | taken cap fr htype hmeta hpayload hsend => exact ⟨rfl, rfl, id⟩
  | refused cap fr htype hmeta hpayload e hsend =>
      refine ⟨by rw [SecureStream.close_received]; rfl,
        by rw [SecureStream.close_recv]; rfl, ?_⟩
      intro hopen
      simp at hopen

theorem recv_send_handed (P : Primitives) (env : StreamEnv) (s : SecureStream) :
    (recv P env s).2.send = s.send ∧ (recv P env s).2.handed = s.handed := by
  have hstep := recv_step P env s
  generalize recv P env s = r at hstep ⊢
  cases hstep with
  | refused hclosed => exact ⟨rfl, rfl⟩
  | failed e hclosed => simp
  | malformed e hclosed wire recv => simp [SecureStream.countReceived]
  | received hclosed wire rest df ev recv hread hdec hev => exact ⟨rfl, rfl⟩

theorem recv_counted
    {P : Primitives} {s : SecureStream} (hcounted : Counted s)
    (env : StreamEnv) : Counted (recv P env s).2 := by
  have hstep := recv_step P env s
  generalize recv P env s = r at hstep ⊢
  cases hstep with
  | refused hclosed => exact hcounted
  | failed e hclosed =>
      intro hopen
      simp at hopen
  | malformed e hclosed wire recv =>
      intro hopen
      simp at hopen
  | received hclosed wire rest df ev recv hread hdec hev =>
      intro hopen
      obtain ⟨hsent, hreceived⟩ := hcounted hclosed
      obtain ⟨_, _, _, _, hrecv⟩ := openFrame_ok (decodeFrame_ok hdec).2
      refine ⟨hsent, ?_⟩
      simp [SecureStream.countReceived, hrecv, hreceived]

theorem sendFrameLocked_encode_error
    {P : Primitives} {t : FrameType} {metaBytes payload : Bytes} {padLen : ℤ}
    {env : StreamEnv} {s : SecureStream} {e : EwpError}
    (herror : (sendFrameLocked P t metaBytes payload padLen env s).1 =
      .error (.encodeFrame t.code e)) :
    ∃ cap, (sendFrameLocked P t metaBytes payload padLen env s).2 =
      { s with sendBufCap := cap } := by
  have hstep := sendFrameLocked_step P t metaBytes payload padLen env s
  generalize sendFrameLocked P t metaBytes payload padLen env s = r
    at hstep herror ⊢
  cases hstep with
  | kept outcome cap failed => exact ⟨cap, rfl⟩
  | taken cap fr htype hmeta hpayload hsend => simp at herror
  | refused cap fr htype hmeta hpayload e hsend => simp at herror

/-! ## Runs -/

inductive StreamTask where
  | sendFrame (t : FrameType) (metaBytes payload : Bytes) (padLen : ℤ)
  | recv
  | close

inductive StreamResult where
  | sent (outcome : Outcome EwpError Unit)
  | received (result : Except EwpError Event)
  | closed

namespace StreamTask

def proc (P : Primitives) : StreamTask → StreamProc StreamResult
  | .sendFrame t metaBytes payload padLen => do
      let outcome ← SingEwp.sendFrame P t metaBytes payload padLen
      pure (.sent outcome)
  | .recv =>
      Proc.atomic .recv (fun env s =>
        (.received (SingEwp.recv P env s).1, (SingEwp.recv P env s).2))
  | .close => Proc.atomic .close (fun _ s => (.closed, s.close))

def isSend : StreamTask → Bool
  | .sendFrame _ _ _ _ => true
  | _ => false

end StreamTask

def streamPool (P : Primitives) (s : SecureStream) (tasks : List StreamTask) :
    Pool StreamLabel StreamEnv SecureStream StreamResult where
  shared := s
  threads := tasks.map (StreamTask.proc P)

/-- The stream after a schedule of its callers. -/
def streamRun (P : Primitives) (keys : SessionKeys) (side : Side)
    (tasks : List StreamTask) (schedule : List (ℕ × StreamEnv)) : SecureStream :=
  ((streamPool P (newSecureStream keys side) tasks).run schedule).shared

/-- The counter field of a handed-over message. -/
def SentFrame.wireCounter (e : SentFrame) : ℕ :=
  (hdrCounter (e.wire.take frameHeaderSize)).toNat

/-- The nonce of the `i`-th frame of a direction. -/
def FrameAEAD.nonceAt (f : FrameAEAD) (i : ℕ) : FixedBytes aeadNonceLen :=
  f.composeNonce (UInt64.ofNat i)

/-- How a stream that began in context `f` uses its counter. -/
structure NonceDiscipline (P : Primitives) (f : FrameAEAD) (s : SecureStream) :
    Prop where
  consecutive : s.handed.map SentFrame.wireCounter = List.range s.handed.length
  /-- The `i`-th message is header, ciphertext and pad, and its ciphertext is
  sealed under nonce `i`. -/
  sealed : ∀ i (e : SentFrame), s.handed[i]? = some e →
    ∃ fr, e.SealedIn P (f.seek i) fr ∧
      fr.cipher P (f.seek i) = P.aeadSeal f.key (f.nonceAt i)
        (e.metaBytes ++ e.payload) (fr.header (UInt64.ofNat i))
  /-- No two messages share their nonce. -/
  fresh : ∀ i j, i < s.handed.length → j < s.handed.length →
    f.nonceAt i = f.nonceAt j → i = j
  counts : s.closed = false →
    s.send.counter = s.frmOut ∧ s.recv.counter = s.frmIn
  encode_error : ∀ t metaBytes payload padLen env e,
    (sendFrameLocked P t metaBytes payload padLen env s).1 =
        .error (.encodeFrame t.code e) →
      ∃ cap, (sendFrameLocked P t metaBytes payload padLen env s).2 =
        { s with sendBufCap := cap }

theorem SentFrame.SealedIn.wireCounter
    {P : Primitives} {f : FrameAEAD} {e : SentFrame} {fr : Frame} {i : ℕ}
    (hsealed : e.SealedIn P (f.seek i) fr) (hlt : i < 2 ^ 64) :
    e.wireCounter = i := by
  have hhdr : e.wire.take frameHeaderSize = fr.header (f.seek i).counter := by
    rw [hsealed.wire, Frame.wire, List.take_left' (fr.header_length _)]
  rw [SentFrame.wireCounter, hhdr, Frame.hdrCounter_header]
  exact UInt64.toNat_ofNat_of_lt' hlt

theorem Ledger.consecutive
    {P : Primitives} {f : FrameAEAD} {s : SecureStream}
    (hledger : Ledger P f s) (hlen : s.handed.length ≤ 2 ^ 64) :
    s.handed.map SentFrame.wireCounter = List.range s.handed.length := by
  apply List.ext_getElem
  · simp
  · intro i hi _
    have hi' : i < s.handed.length := by simpa using hi
    obtain ⟨fr, hsealed⟩ :=
      hledger.frames i _ (List.getElem?_eq_getElem hi')
    simpa using hsealed.wireCounter (lt_of_lt_of_le hi' hlen)

theorem FrameAEAD.nonceAt_inj
    {f : FrameAEAD} {i j : ℕ} (hi : i < 2 ^ 64) (hj : j < 2 ^ 64)
    (heq : f.nonceAt i = f.nonceAt j) : i = j := by
  have hnat := congrArg UInt64.toNat (FrameAEAD.composeNonce_inj heq)
  rwa [UInt64.toNat_ofNat_of_lt' hi, UInt64.toNat_ofNat_of_lt' hj] at hnat

theorem Ledger.sealedAt
    {P : Primitives} {f : FrameAEAD} {s : SecureStream}
    (hledger : Ledger P f s) (i : ℕ) (e : SentFrame)
    (he : s.handed[i]? = some e) :
    ∃ fr, e.SealedIn P (f.seek i) fr ∧
      fr.cipher P (f.seek i) = P.aeadSeal f.key (f.nonceAt i)
        (e.metaBytes ++ e.payload) (fr.header (UInt64.ofNat i)) := by
  obtain ⟨fr, hsealed⟩ := hledger.frames i e he
  refine ⟨fr, hsealed, ?_⟩
  rw [← hsealed.metaBytes, ← hsealed.payload]
  rfl

theorem StreamTask.meets
    {P : Primitives} {f : FrameAEAD} (task : StreamTask) :
    Proc.Meets (fun s => Ledger P f s ∧ Counted s) (fun _ _ _ => True)
      SecureStream.handed
      (fun entries => entries.length ≤ if task.isSend then 1 else 0)
      (fun _ _ => True) [] (task.proc P) := by
  cases task with
  | sendFrame t metaBytes payload padLen =>
      have hsend : Proc.Meets (fun s => Ledger P f s ∧ Counted s)
          (fun _ _ _ => True) SecureStream.handed
          (fun entries => entries.length ≤ 1) (fun _ _ => True) []
          (SingEwp.sendFrame P t metaBytes payload padLen) := by
        apply sendFrame_meets (by simp) (fun _ _ _ => trivial)
        intro env s hinv _
        obtain ⟨new, hnew, hle⟩ :=
          sendFrameLocked_handed P t metaBytes payload padLen env s
        exact ⟨⟨sendFrameLocked_ledger hinv.1 _ _ _ _ _,
          sendFrameLocked_counted hinv.2 _ _ _ _ _⟩, new, hnew, hle, trivial⟩
      exact Proc.Meets.bind hsend (fun _ _ hduring _ => ⟨hduring, trivial⟩)
  | recv =>
      apply Proc.Meets.atomic (by simp)
      intro env s hinv _
      obtain ⟨hsend, hhanded⟩ := recv_send_handed P env s
      exact ⟨⟨hinv.1.of_eq hsend hhanded, recv_counted hinv.2 env⟩, [],
        by simpa using hhanded, by simp, trivial⟩
  | close =>
      apply Proc.Meets.atomic (by simp)
      intro env s hinv _
      refine ⟨⟨hinv.1.of_eq (by simp) (by simp), ?_⟩, [], by simp, by simp,
        trivial⟩
      intro hopen
      simp at hopen

theorem newSecureStream_invariant
    (P : Primitives) (keys : SessionKeys) (side : Side) :
    Ledger P (newSecureStream keys side).send (newSecureStream keys side) ∧
      Counted (newSecureStream keys side) := by
  cases side with
  | client => exact ⟨⟨rfl, by simp [newSecureStream, newClientSecureStream]⟩,
      fun _ => ⟨rfl, rfl⟩⟩
  | server => exact ⟨⟨rfl, by simp [newSecureStream, newServerSecureStream]⟩,
      fun _ => ⟨rfl, rfl⟩⟩

theorem newSecureStream_handed (keys : SessionKeys) (side : Side) :
    (newSecureStream keys side).handed = [] := by
  cases side <;> rfl

theorem streamPool_meets
    (P : Primitives) (keys : SessionKeys) (side : Side)
    (tasks : List StreamTask) (thread : ℕ) (p : StreamProc StreamResult)
    (hp : (streamPool P (newSecureStream keys side) tasks).threads[thread]? =
      some p) :
    Proc.Meets
      (fun s => Ledger P (newSecureStream keys side).send s ∧ Counted s)
      (fun _ _ _ => True) SecureStream.handed
      (fun entries => entries.length ≤
        if (tasks[thread]?).any StreamTask.isSend then 1 else 0)
      (fun _ _ => True) [] p := by
  simp only [streamPool, List.getElem?_map, Option.map_eq_some_iff] at hp
  obtain ⟨task, htask, hproc⟩ := hp
  rw [← hproc, htask]
  exact StreamTask.meets task

section Invariant

variable (P : Primitives) (keys : SessionKeys) (side : Side)
variable (tasks : List StreamTask) (schedule : List (ℕ × StreamEnv))

theorem streamPool_admits :
    (streamPool P (newSecureStream keys side) tasks).Admits
      (fun _ _ _ => True) schedule :=
  Pool.admits_of_forall
    (fun _ _ _ => trivial : ∀ (_ : StreamLabel) (_ : StreamEnv)
      (_ : SecureStream), True) _ schedule

theorem streamRun_invariant :
    Ledger P (newSecureStream keys side).send
        (streamRun P keys side tasks schedule) ∧
      Counted (streamRun P keys side tasks schedule) :=
  (Pool.run_meets (streamPool_meets P keys side tasks)
    (streamPool_admits P keys side tasks schedule)
    (newSecureStream_invariant P keys side)).1

/-- While the stream is open, `frmOut` counts the frames handed over. -/
theorem streamRun_frmOut
    (hopen : (streamRun P keys side tasks schedule).closed = false) :
    (streamRun P keys side tasks schedule).frmOut =
      UInt64.ofNat (streamRun P keys side tasks schedule).handed.length := by
  obtain ⟨hledger, hcounted⟩ := streamRun_invariant P keys side tasks schedule
  rw [← (hcounted hopen).1, hledger.context]
  rfl

end Invariant

/-- Counters are consecutive in hand-over order, each frame is sealed under the
nonce of its own counter, and the counters agree with the statistics while the
stream is open, whatever fails on the way. -/
theorem streamRun_nonceDiscipline
    (P : Primitives) (keys : SessionKeys) (side : Side)
    (tasks : List StreamTask)
    (htasks : tasks.countP StreamTask.isSend < 2 ^ 64)
    (schedule : List (ℕ × StreamEnv)) :
    NonceDiscipline P (newSecureStream keys side).send
      (streamRun P keys side tasks schedule) := by
  obtain ⟨hledger, hcounted⟩ := streamRun_invariant P keys side tasks schedule
  have hlen := Pool.run_log_length_le (streamPool_meets P keys side tasks)
    (fun _ _ h => h) (streamPool_admits P keys side tasks schedule)
    (newSecureStream_invariant P keys side)
  have hcount : (streamPool P (newSecureStream keys side) tasks).threads.length =
      tasks.length := by simp [streamPool]
  rw [hcount, sum_range_countP] at hlen
  have hstart : (streamPool P (newSecureStream keys side) tasks).shared.handed =
      [] := newSecureStream_handed keys side
  rw [hstart, List.length_nil, Nat.zero_add] at hlen
  have hfew := lt_of_le_of_lt hlen htasks
  exact
    { consecutive := hledger.consecutive hfew.le
      sealed := hledger.sealedAt
      fresh := fun i j hi hj =>
        FrameAEAD.nonceAt_inj (hi.trans hfew) (hj.trans hfew)
      counts := hcounted
      encode_error := fun _ _ _ _ _ _ => sendFrameLocked_encode_error }

namespace Transparent

def keys : SessionKeys where
  c2sKey := FixedBytes.copyFrom aeadKeyLen [1]
  s2cKey := FixedBytes.copyFrom aeadKeyLen [2]
  c2sNonce := FixedBytes.copyFrom noncePrefixLen [1]
  s2cNonce := FixedBytes.copyFrom noncePrefixLen [2]

def streamEnv (readMessage : Except EwpError Bytes) : StreamEnv where
  bucket := fun n => some (FixedBytes.copyFrom n [])
  pad := fun n => some (FixedBytes.copyFrom n [])
  chunk := fun n => some (FixedBytes.copyFrom n [])
  nowNs := 0
  sendMessage := fun _ => none
  readMessage := readMessage

end Transparent

theorem streamRun_nonceDiscipline_pings :
    (streamRun Transparent.suite Transparent.keys .client
        [.sendFrame framePing [] [1] 0, .sendFrame framePing [] [2] 0]
        [(0, Transparent.streamEnv (.ok [])), (1, Transparent.streamEnv (.ok [])),
          (1, Transparent.streamEnv (.ok [])),
          (0, Transparent.streamEnv (.ok []))]).handed.length = 2 ∧
      NonceDiscipline Transparent.suite
        (newSecureStream Transparent.keys .client).send
        (streamRun Transparent.suite Transparent.keys .client
          [.sendFrame framePing [] [1] 0, .sendFrame framePing [] [2] 0]
          [(0, Transparent.streamEnv (.ok [])),
            (1, Transparent.streamEnv (.ok [])),
            (1, Transparent.streamEnv (.ok [])),
            (0, Transparent.streamEnv (.ok []))]) :=
  ⟨by decide, streamRun_nonceDiscipline _ _ _ _ (by decide) _⟩

end SingEwp
