import SingEwp.StreamConn

/-!
# The reading end of the TCP tunnel

The reader's place in the log of frames that its peer handed over.  Bytes arrive
in fragments of that log's wire image, reads come with buffers of any size, and
the invariant says that what has been returned and what is still buffered make
up the data of the frames consumed so far.
-/

namespace SingEwp

/-- The frame types of a TCP tunnel: data, keepalive and cover. -/
def tunnelTypes : List FrameType :=
  [frameTCPData, framePing, framePong, framePaddingOnly]

/-- The application bytes a frame carries. -/
def SentFrame.data (e : SentFrame) : Bytes :=
  if e.type = frameTCPData then e.payload else []

def tunnelData (log : List SentFrame) : Bytes := log.flatMap SentFrame.data

/-- What the framer writes for the frames of a log. -/
def wireBytes (log : List SentFrame) : Bytes :=
  log.flatMap (fun e => lengthFrame e.wire)

@[simp] theorem tunnelData_nil : tunnelData [] = [] := rfl

@[simp] theorem tunnelData_append (left right : List SentFrame) :
    tunnelData (left ++ right) = tunnelData left ++ tunnelData right := by
  simp [tunnelData]

@[simp] theorem tunnelData_singleton (e : SentFrame) :
    tunnelData [e] = e.data := by
  simp [tunnelData]

theorem wireBytes_eq_nil {log : List SentFrame} (hnil : wireBytes log = []) :
    log = [] := by
  cases log with
  | nil => rfl
  | cons e log =>
      have hlen := congrArg List.length hnil
      simp [wireBytes] at hlen

/-! ## The reader -/

theorem eventOf_tunnel {df : DecodedFrame} (htype : df.type ∈ tunnelTypes) :
    eventOf df = .ok { type := df.type, payload := df.payload } := by
  obtain ⟨counter, type, metaBytes, payload⟩ := df
  simp only [tunnelTypes, List.mem_cons, List.not_mem_nil, or_false] at htype
  rcases htype with rfl | rfl | rfl | rfl <;> rfl

/-- The log of a working tunnel. -/
structure TunnelLog (P : Primitives) (f : FrameAEAD) (log : List SentFrame) :
    Prop where
  frames : ∀ i (e : SentFrame), log[i]? = some e →
    ∃ fr, e.SealedIn P (f.seek i) fr
  types : ∀ e ∈ log, e.type ∈ tunnelTypes
  sizes : ∀ e ∈ log, e.wire.length ≤ maxFrameSize

/-- The reader has consumed the first `k` frames and returned `out`; `later` is
still to arrive. -/
structure Reading (f : FrameAEAD) (log : List SentFrame) (k : ℕ)
    (later out : Bytes) (c : StreamConn) : Prop where
  le_length : k ≤ log.length
  stream_open : c.stream.closed = false
  context : c.stream.recv = f.seek k
  live : c.conn.ended = none
  bytes : c.conn.pending ++ later = wireBytes (log.drop k)
  data : out ++ c.readBuf = tunnelData (log.take k)

section Reader

variable {P : Primitives} {f : FrameAEAD} {log : List SentFrame}

theorem Reading.bytes_next
    {k : ℕ} {later out : Bytes} {c : StreamConn}
    (hreading : Reading f log k later out c) (hmore : k < log.length) :
    c.conn.pending ++ later =
      lengthFrame log[k].wire ++ wireBytes (log.drop (k + 1)) := by
  rw [hreading.bytes, List.drop_eq_getElem_cons hmore]
  rfl

theorem Reading.recvFramed_next
    {k : ℕ} {later out : Bytes} {c : StreamConn} (hlog : TunnelLog P f log)
    (hreading : Reading f log k later out c) (hempty : c.readBuf = [])
    (hmore : k < log.length)
    (hfull : 4 + log[k].wire.length ≤ c.conn.pending.length) :
    ∃ c', SingEwp.recvFramed P c =
        some (.ok { type := log[k].type,
                    payload := appendToNil log[k].payload }, c') ∧
      c'.readBuf = [] ∧ c'.conn.pending.length < c.conn.pending.length ∧
      Reading f log (k + 1) later out { c' with readBuf := log[k].data } := by
  have hopen := hreading.stream_open
  have hmem : log[k] ∈ log := List.getElem_mem hmore
  obtain ⟨fr, hsealed⟩ := hlog.frames k _ (List.getElem?_eq_getElem hmore)
  obtain ⟨rest, hpending, hrest⟩ : ∃ rest,
      c.conn.pending = lengthFrame log[k].wire ++ rest ∧
        rest ++ later = wireBytes (log.drop (k + 1)) := by
    have hbytes := hreading.bytes_next hmore
    have hpre : lengthFrame log[k].wire <+: c.conn.pending := by
      apply List.prefix_of_prefix_length_le ⟨_, rfl⟩
        (⟨later, hbytes⟩ : c.conn.pending <+: _)
      simpa using hfull
    obtain ⟨rest, hpending⟩ := hpre
    refine ⟨rest, hpending.symm, ?_⟩
    rw [← hpending, List.append_assoc] at hbytes
    exact List.append_cancel_left hbytes
  obtain ⟨conn, hread, hconn, hended⟩ :=
    framerRead_lengthFrame (hlog.sizes _ hmem) hpending
  have hmessage : (readingEnv (.ok log[k].wire)).readMessage =
      .ok (fr.wire P c.stream.recv) := by
    rw [hsealed.wire, hreading.context]
    rfl
  have hevent : eventOf (fr.decoded c.stream.recv.counter) =
      .ok { type := fr.type, payload := appendToNil fr.payload } := by
    apply eventOf_tunnel
    rw [Frame.decoded, hsealed.type]
    exact hlog.types _ hmem
  obtain ⟨s', hrecv, hstill, hcontext⟩ := recv_wire hopen hmessage hevent
  rw [hsealed.type, hsealed.payload] at hrecv
  refine ⟨{ c with stream := s', conn := conn }, ?_, hempty, ?_, hmore, hstill,
    ?_, hended.trans hreading.live, ?_, ?_⟩
  · simp [SingEwp.recvFramed, hopen, hread, hrecv]
  · rw [hconn, hpending]
    simp
  · rw [hcontext, hreading.context, FrameAEAD.seek_succ]
  · rw [hconn]
    exact hrest
  · have hdata := hreading.data
    rw [hempty, List.append_nil] at hdata
    rw [hdata, List.take_succ_eq_append_getElem hmore, tunnelData_append,
      tunnelData_singleton]

theorem Reading.recvFramed
    {k : ℕ} {later out : Bytes} {c : StreamConn} (hlog : TunnelLog P f log)
    (hreading : Reading f log k later out c) (hempty : c.readBuf = []) :
    (SingEwp.recvFramed P c = none ∧
      (later = [] → k = log.length ∧ c.conn.pending = [])) ∨
    ∃ e c', e ∈ log ∧ SingEwp.recvFramed P c =
        some (.ok { type := e.type, payload := appendToNil e.payload }, c') ∧
      c'.readBuf = [] ∧ c'.conn.pending.length < c.conn.pending.length ∧
      Reading f log (k + 1) later out { c' with readBuf := e.data } := by
  have hopen := hreading.stream_open
  by_cases hmore : k < log.length
  · by_cases hshort : c.conn.pending.length < 4 + log[k].wire.length
    · left
      have hbytes := hreading.bytes_next hmore
      have hwait := framerRead_waits (hlog.sizes _ (List.getElem_mem hmore))
        hreading.live hbytes hshort
      refine ⟨by simp [SingEwp.recvFramed, hopen, hwait], ?_⟩
      -- with nothing left to arrive, the whole frame would be waiting
      intro hnone
      have hlen := congrArg List.length hbytes
      simp [hnone] at hlen
      omega
    · right
      obtain ⟨c', hrecv⟩ :=
        hreading.recvFramed_next hlog hempty hmore (not_lt.mp hshort)
      exact ⟨log[k], c', List.getElem_mem hmore, hrecv⟩
  · left
    have hend : k = log.length := le_antisymm hreading.le_length (not_lt.mp hmore)
    have hnone : c.conn.pending = [] := by
      have hbytes := hreading.bytes
      rw [hend, List.drop_length] at hbytes
      exact (List.append_eq_nil_iff.mp hbytes).1
    have hwait : framerRead c.conn = none := by
      rw [framerRead, Conn.readFull_waits hreading.live (by simp [hnone])]
    exact ⟨by simp [SingEwp.recvFramed, hopen, hwait], fun _ => ⟨hend, hnone⟩⟩

theorem Reading.fill
    {fuel k : ℕ} {later out : Bytes} {c : StreamConn}
    (hlog : TunnelLog P f log) (hreading : Reading f log k later out c)
    (hfuel : c.conn.pending.length + 1 < fuel) :
    ∃ k' c', Reading f log k' later out c' ∧
      ((fillReadBuf P fuel c = (none, c') ∧ c'.readBuf = [] ∧
          (later = [] → k' = log.length ∧ c'.conn.pending = [])) ∨
        (fillReadBuf P fuel c = (some (.ok ()), c') ∧ c'.readBuf ≠ [])) := by
  induction fuel generalizing k c with
  | zero => omega
  | succ fuel ih =>
      unfold fillReadBuf
      by_cases hfull : c.readBuf ≠ []
      · rw [if_pos hfull]
        exact ⟨k, c, hreading, Or.inr ⟨rfl, hfull⟩⟩
      · rw [if_neg hfull]
        have hempty : c.readBuf = [] := not_not.mp hfull
        rcases hreading.recvFramed hlog hempty with
          ⟨hwait, hend⟩ | ⟨e, c', hmem, hrecv, hnone, hless, hnext⟩
        · rw [hwait]
          exact ⟨k, c, hreading, Or.inl ⟨rfl, hempty, hend⟩⟩
        · simp only [hrecv, appendToNil_bytes]
          have hsame : e.data = [] → { c' with readBuf := e.data } = c' := by
            intro hdata
            rw [hdata, ← hnone]
          by_cases htcp : e.type = frameTCPData
          · have hdata : e.data = e.payload := if_pos htcp
            rw [if_pos htcp]
            by_cases hpayload : e.payload = []
            · rw [if_pos hpayload]
              rw [hsame (hdata.trans hpayload)] at hnext
              exact ih hnext (by omega)
            · rw [if_neg hpayload, ← hdata]
              exact ih hnext (show c'.conn.pending.length + 1 < fuel by omega)
          · have hdata : e.data = [] := if_neg htcp
            have hcover : e.type ∈ [framePaddingOnly, framePing, framePong] := by
              have htype := hlog.types e hmem
              simp only [tunnelTypes, List.mem_cons, List.not_mem_nil,
                or_false] at htype ⊢
              tauto
            rw [if_neg htcp, if_pos hcover]
            rw [hsame hdata] at hnext
            exact ih hnext (by omega)

/-- A read returns some of the bytes that are next, or waits with nothing left
over. -/
theorem Reading.read
    {k n : ℕ} {later out : Bytes} {c : StreamConn} (hlog : TunnelLog P f log)
    (hreading : Reading f log k later out c) (hn : 0 < n) :
    ∃ k' c',
      (streamRead P n c = (none, c') ∧ Reading f log k' later out c' ∧
        (later = [] → out = tunnelData log)) ∨
      ∃ b, streamRead P n c = (some (.ok b), c') ∧ b ≠ [] ∧ b.length ≤ n ∧
        Reading f log k' later (out ++ b) c' := by
  obtain ⟨k', c', hfilled, hcases⟩ :=
    hreading.fill hlog (Nat.lt_succ_self (c.conn.pending.length + 1))
  unfold streamRead
  rcases hcases with ⟨hfill, hempty, hend⟩ | ⟨hfill, hfull⟩
  · rw [hfill]
    refine ⟨k', c', Or.inl ⟨rfl, hfilled, ?_⟩⟩
    intro hlater
    have hdata := hfilled.data
    rw [(hend hlater).1, List.take_length, hempty, List.append_nil] at hdata
    exact hdata
  · rw [hfill]
    refine ⟨k', { c' with readBuf := c'.readBuf.drop n }, Or.inr
      ⟨c'.readBuf.take n, rfl, ?_, List.length_take_le _ _, ?_⟩⟩
    · simp [hfull]
      omega
    · have hdata := hfilled.data
      exact ⟨hfilled.le_length, hfilled.stream_open, hfilled.context,
        hfilled.live, hfilled.bytes, by
          rw [List.append_assoc, List.take_append_drop, hdata]⟩

theorem Reading.out_isPrefix
    {k : ℕ} {later out : Bytes} {c : StreamConn}
    (hreading : Reading f log k later out c) : out <+: tunnelData log := by
  have htaken : tunnelData (log.take k) <+: tunnelData log :=
    ⟨tunnelData (log.drop k), by
      rw [← tunnelData_append, List.take_append_drop]⟩
  exact List.IsPrefix.trans ⟨c.readBuf, hreading.data⟩ htaken

theorem Reading.out_eq_of_consumed
    {k : ℕ} {out : Bytes} {c : StreamConn}
    (hreading : Reading f log k [] out c) (hpending : c.conn.pending = [])
    (hempty : c.readBuf = []) : out = tunnelData log := by
  have hbytes := hreading.bytes
  rw [hpending, List.append_nil] at hbytes
  have hend : log.length ≤ k :=
    List.drop_eq_nil_iff.mp (wireBytes_eq_nil hbytes.symm)
  have hdata := hreading.data
  rw [hempty, List.append_nil, List.take_of_length_le hend] at hdata
  exact hdata

theorem Reading.out_eq_of_wait
    {k n : ℕ} {out : Bytes} {c : StreamConn} (hlog : TunnelLog P f log)
    (hreading : Reading f log k [] out c) (hn : 0 < n)
    (hwait : (streamRead P n c).1 = none) : out = tunnelData log := by
  obtain ⟨k', c', ⟨_, _, hend⟩ | ⟨b, hread, _⟩⟩ := hreading.read hlog hn
  · exact hend rfl
  · rw [hread] at hwait
    simp at hwait

end Reader

/-! ## Runs of the reader -/

inductive ReaderOp where
  | arrive (frag : Bytes)
  | read (n : ℕ)

def arrivals : List ReaderOp → Bytes
  | [] => []
  | .arrive frag :: rest => frag ++ arrivals rest
  | .read _ :: rest => arrivals rest

theorem arrivals_reads
    {ops : List ReaderOp} (hops : ∀ op ∈ ops, ∃ n, op = .read n) :
    arrivals ops = [] := by
  induction ops with
  | nil => rfl
  | cons op ops ih =>
      obtain ⟨n, rfl⟩ := hops op List.mem_cons_self
      exact ih fun op hop => hops op (List.mem_cons_of_mem _ hop)

/-- The results of the reads, `none` for a call that waits, and the end state. -/
def readerRun (P : Primitives) :
    List ReaderOp → StreamConn → List (Option (Except EwpError Bytes)) × StreamConn
  | [], c => ([], c)
  | .arrive frag :: rest, c =>
      readerRun P rest { c with conn := c.conn.arrive frag }
  | .read n :: rest, c =>
      ((streamRead P n c).1 :: (readerRun P rest (streamRead P n c).2).1,
        (readerRun P rest (streamRead P n c).2).2)

/-- The bytes that a list of results hands to the caller. -/
def returned (results : List (Option (Except EwpError Bytes))) : Bytes :=
  results.flatMap (fun result =>
    match result with
    | some (.ok b) => b
    | _ => [])

def ReadFine (result : Option (Except EwpError Bytes)) : Prop :=
  result = none ∨ ∃ b, result = some (.ok b) ∧ b ≠ []

theorem readerRun_reading
    {P : Primitives} {f : FrameAEAD} {log : List SentFrame} {k : ℕ}
    {tail out : Bytes} {c : StreamConn} {ops : List ReaderOp}
    (hlog : TunnelLog P f log) (hsizes : ∀ n, ReaderOp.read n ∈ ops → 0 < n)
    (hreading : Reading f log k (arrivals ops ++ tail) out c) :
    (∀ result ∈ (readerRun P ops c).1, ReadFine result) ∧
      ∃ k', Reading f log k' tail (out ++ returned (readerRun P ops c).1)
        (readerRun P ops c).2 := by
  induction ops generalizing k out c with
  | nil =>
      refine ⟨by simp [readerRun], k, ?_⟩
      simpa [readerRun, returned, arrivals] using hreading
  | cons op ops ih =>
      have hsizes' : ∀ n, ReaderOp.read n ∈ ops → 0 < n :=
        fun n hmem => hsizes n (List.mem_cons_of_mem _ hmem)
      cases op with
      | arrive frag =>
          apply ih hsizes'
          exact ⟨hreading.le_length, hreading.stream_open, hreading.context,
            hreading.live, by
              simpa [arrivals] using hreading.bytes, hreading.data⟩
      | read n =>
          obtain ⟨k', c', ⟨hread, hnext, _⟩ | ⟨b, hread, hne, _, hnext⟩⟩ :=
            hreading.read hlog (hsizes n List.mem_cons_self)
          · obtain ⟨hfine, hend⟩ := ih hsizes' hnext
            simp only [readerRun, hread]
            exact ⟨List.forall_mem_cons.mpr ⟨Or.inl rfl, hfine⟩,
              by simpa [returned] using hend⟩
          · obtain ⟨hfine, hend⟩ := ih hsizes' hnext
            simp only [readerRun, hread]
            exact ⟨List.forall_mem_cons.mpr ⟨Or.inr ⟨b, rfl, hne⟩, hfine⟩,
              by simpa [returned] using hend⟩

end SingEwp
