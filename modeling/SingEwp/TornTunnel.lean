import SingEwp.TunnelDelivery

/-!
# A tunnel cut off

The connection under a TCP tunnel ends somewhere in the byte stream: between two
frames, inside a length, inside a frame.  The reader returns the data of exactly
those frames that have arrived whole, then one error, and `io.ErrClosedPipe` from
there on.  The tunnel has no end marker of its own, so a cut between two frames
reads like an orderly `io.EOF`; so does one right behind a length, because
`io.ReadFull` got nothing of the message.  Any other cut is an
`io.ErrUnexpectedEOF`.
-/

namespace SingEwp

/-! ## Where a stream is cut -/

/-- Of the frames behind `n` bytes of their wire image: how many are whole, and
how many bytes there are of the next one. -/
def cutAt : ℕ → List SentFrame → ℕ × ℕ
  | n, [] => (0, n)
  | n, e :: rest =>
      if 4 + e.wire.length ≤ n then
        ((cutAt (n - (4 + e.wire.length)) rest).1 + 1,
          (cutAt (n - (4 + e.wire.length)) rest).2)
      else (0, n)

/-- What `ReadMessage` makes of a connection that ends with `e` after `part`
bytes of a length-framed message. -/
def tornError (e : IoError) (part : ℕ) : IoError :=
  if e = .eof ∧ part ≠ 0 ∧ part ≠ 4 then .unexpectedEOF else e

/-- The results of reading on after the end: data, one error, and then nothing
but a closed pipe. -/
structure EndsIn (err : EwpError) (results : List (Option (Except EwpError Bytes)))
    (good : List Bytes) (closed : List (Option (Except EwpError Bytes))) :
    Prop where
  results_eq : results = good.map (fun b => some (.ok b)) ++ closed
  nonempty : ∀ b ∈ good, b ≠ []
  last : closed = [] ∨
    ∃ m, closed = some (.error err) ::
      List.replicate m (some (.error (.io .closedPipe)))

theorem cutAt_whole
    {n : ℕ} {e : SentFrame} {rest : List SentFrame}
    (hwhole : 4 + e.wire.length ≤ n) :
    cutAt n (e :: rest) =
      ((cutAt (n - (4 + e.wire.length)) rest).1 + 1,
        (cutAt (n - (4 + e.wire.length)) rest).2) := by
  rw [cutAt, if_pos hwhole]

theorem cutAt_part
    {n : ℕ} {e : SentFrame} {rest : List SentFrame}
    (hpart : n < 4 + e.wire.length) : cutAt n (e :: rest) = (0, n) := by
  rw [cutAt, if_neg (not_le.mpr hpart)]

theorem wireBytes_cons (e : SentFrame) (rest : List SentFrame) :
    wireBytes (e :: rest) = lengthFrame e.wire ++ wireBytes rest := rfl

theorem cutAt_drop (k n : ℕ) (log : List SentFrame) (hk : k ≤ log.length) :
    cutAt ((wireBytes (log.take k)).length + n) log =
      ((cutAt n (log.drop k)).1 + k, (cutAt n (log.drop k)).2) := by
  induction log generalizing k with
  | nil =>
      obtain rfl : k = 0 := by simpa using hk
      simp [wireBytes]
  | cons e rest ih =>
      cases k with
      | zero => simp [wireBytes]
      | succ k =>
          rw [List.take_succ_cons, wireBytes_cons, List.length_append,
            lengthFrame_length, cutAt_whole (by omega)]
          have hless : 4 + e.wire.length + (wireBytes (rest.take k)).length + n -
              (4 + e.wire.length) = (wireBytes (rest.take k)).length + n := by
            omega
          rw [hless, ih k (by simpa using hk), List.drop_succ_cons, Nat.add_assoc]

theorem wireBytes_append (left right : List SentFrame) :
    wireBytes (left ++ right) = wireBytes left ++ wireBytes right := by
  simp [wireBytes]

/-! ## The connection after its end -/

namespace Conn

def hangUp (c : Conn) (e : IoError) : Conn := { c with ended := some e }

/-- A read that gets what it wants does not notice the end. -/
theorem readFull_hangUp
    {n : ℕ} {c c' : Conn} {b : Bytes} (e : IoError)
    (hread : c.readFull n = some (.ok b, c')) :
    (c.hangUp e).readFull n = some (.ok b, c'.hangUp e) := by
  unfold readFull at hread ⊢
  rw [show (c.hangUp e).arrived = c.arrived from rfl]
  cases htake : takeFragments n c.arrived with
  | none =>
      rw [htake] at hread
      cases hended : c.ended with
      | none => simp [hended] at hread
      | some e => simp [hended] at hread
  | some r =>
      rw [htake] at hread
      cases hread
      rfl

end Conn

theorem framerRead_hangUp
    {c c' : Conn} {msg : Bytes} (e : IoError)
    (hread : framerRead c = some (.ok msg, c')) :
    framerRead (c.hangUp e) = some (.ok msg, c'.hangUp e) := by
  unfold framerRead at hread
  split at hread
  · cases hread
  · cases hread
  · rename_i hdr c₁ hhdr
    split at hread
    · cases hread
    · rename_i hfits
      have hbody := framerRead_of_header (Conn.readFull_hangUp e hhdr)
        (not_lt.mp hfits)
      split at hread
      · cases hread
      · cases hread
      · rename_i msg' c₂ hmsg
        cases hread
        rw [hbody, Conn.readFull_hangUp e hmsg]
        rfl

def StreamConn.hangUp (c : StreamConn) (e : IoError) : StreamConn :=
  { c with conn := c.conn.hangUp e }

theorem recvFramed_hangUp
    {P : Primitives} {c c' : StreamConn} {ev : Event} (e : IoError)
    (hrecv : recvFramed P c = some (.ok ev, c')) :
    recvFramed P (c.hangUp e) = some (.ok ev, c'.hangUp e) := by
  unfold recvFramed at hrecv ⊢
  rw [show (c.hangUp e).stream = c.stream from rfl]
  split at hrecv
  · cases hrecv
  · rename_i hopen
    rw [if_neg hopen]
    cases hread : framerRead c.conn with
    | none => simp [hread] at hrecv
    | some r =>
        obtain ⟨msg, conn⟩ := r
        rw [hread] at hrecv
        simp only [Option.some.injEq, Prod.mk.injEq] at hrecv
        obtain ⟨hok, rfl⟩ := hrecv
        cases msg with
        | error err => simp [recv, readingEnv, hopen] at hok
        | ok wire =>
            rw [show (c.hangUp e).conn = c.conn.hangUp e from rfl,
              framerRead_hangUp e hread]
            simp [hok, StreamConn.hangUp]

/-! ## Reading what has arrived -/

section Reader

variable {P : Primitives} {f : FrameAEAD} {log : List SentFrame}
variable {k w part : ℕ} {lost out : Bytes} {c : StreamConn} {e : IoError}

/-- A closed stream with nothing left to hand out. -/
structure StreamConn.Ended (c : StreamConn) : Prop where
  stream_closed : c.stream.closed = true
  empty : c.readBuf = []

theorem recvFramed_error
    {err : EwpError} {conn : Conn} (hopen : c.stream.closed = false)
    (hempty : c.readBuf = []) (hread : framerRead c.conn = some (.error err, conn)) :
    ∃ c' : StreamConn, recvFramed P c = some (.error err, c') ∧ c'.Ended := by
  refine ⟨{ c with stream := c.stream.close, conn := conn }, ?_, by simp, hempty⟩
  simp [recvFramed, hopen, hread, recv, readingEnv]

/-- With no whole frame left, the next read fails. -/
theorem Reading.recvFramed_torn
    (hlog : TunnelLog P f log) (hreading : Reading f log k lost out c)
    (hempty : c.readBuf = [])
    (hcut : cutAt c.conn.pending.length (log.drop k) = (0, part)) :
    ∃ c' : StreamConn, SingEwp.recvFramed P (c.hangUp e) =
      some (.error (.io (tornError e part)), c') ∧ c'.Ended := by
  have hopen : (c.hangUp e).stream.closed = false := hreading.stream_open
  have hended : (c.conn.hangUp e).ended = some e := rfl
  by_cases hmore : k < log.length
  · have hbytes := hreading.bytes_next hmore
    rw [List.drop_eq_getElem_cons hmore] at hcut
    by_cases hwhole : 4 + log[k].wire.length ≤ c.conn.pending.length
    · rw [cutAt_whole hwhole] at hcut
      simp at hcut
    · have hshort := not_le.mp hwhole
      rw [cutAt_part hshort] at hcut
      obtain rfl : c.conn.pending.length = part := (Prod.mk.inj hcut).2
      obtain ⟨conn, hread⟩ := framerRead_ended
        (hlog.sizes _ (List.getElem_mem hmore)) hended hbytes hshort
      exact recvFramed_error hopen hempty hread
  · have hnone : c.conn.pending = [] := by
      have hbytes := hreading.bytes
      rw [List.drop_of_length_le (not_lt.mp hmore)] at hbytes
      exact (List.append_eq_nil_iff.mp hbytes).1
    rw [List.drop_of_length_le (not_lt.mp hmore), hnone] at hcut
    obtain rfl : 0 = part := (Prod.mk.inj hcut).2
    have hpending : (c.conn.hangUp e).pending = [] := hnone
    have hread : ∃ conn, framerRead (c.conn.hangUp e) =
        some (.error (.io (tornError e 0)), conn) := by
      rw [framerRead, Conn.readFull_ended hended (by simp [hpending])]
      simp [tornError, hpending]
    obtain ⟨conn, hread⟩ := hread
    exact recvFramed_error hopen hempty hread

/-- With a whole frame left, the next read gets it. -/
theorem Reading.recvFramed_whole
    (hlog : TunnelLog P f log) (hreading : Reading f log k lost out c)
    (hempty : c.readBuf = [])
    (hcut : cutAt c.conn.pending.length (log.drop k) = (w + 1, part)) :
    ∃ (fr : SentFrame) (c' : StreamConn), fr ∈ log ∧
      SingEwp.recvFramed P (c.hangUp e) =
        some (.ok { type := fr.type, payload := appendToNil fr.payload },
          c'.hangUp e) ∧
      c'.readBuf = [] ∧ c'.conn.pending.length < c.conn.pending.length ∧
      Reading f log (k + 1) lost out { c' with readBuf := fr.data } ∧
      cutAt c'.conn.pending.length (log.drop (k + 1)) = (w, part) := by
  have hmore : k < log.length := by
    by_contra hnot
    rw [List.drop_of_length_le (not_lt.mp hnot)] at hcut
    simp [cutAt] at hcut
  have hwhole : 4 + log[k].wire.length ≤ c.conn.pending.length := by
    by_contra hnot
    rw [List.drop_eq_getElem_cons hmore, cutAt_part (not_le.mp hnot)] at hcut
    simp at hcut
  obtain ⟨c', hrecv, hnone, hless, hnext⟩ :=
    hreading.recvFramed_next hlog hempty hmore hwhole
  refine ⟨log[k], c', List.getElem_mem hmore, recvFramed_hangUp e hrecv, hnone,
    hless, hnext, ?_⟩
  -- both sides of the cut have lost the same frame
  have hlen : c.conn.pending.length =
      4 + log[k].wire.length + c'.conn.pending.length := by
    have hbefore := congrArg List.length (hreading.bytes_next hmore)
    have hafter := congrArg List.length hnext.bytes
    simp only [List.length_append, lengthFrame_length] at hbefore hafter
    omega
  rw [List.drop_eq_getElem_cons hmore, cutAt_whole hwhole, hlen,
    Nat.add_sub_cancel_left] at hcut
  obtain ⟨hframes, hpart⟩ := Prod.mk.inj hcut
  exact Prod.ext (Nat.succ.inj hframes) hpart

theorem Reading.fill_torn
    {fuel : ℕ} (hlog : TunnelLog P f log) (hreading : Reading f log k lost out c)
    (hcut : cutAt c.conn.pending.length (log.drop k) = (w, part))
    (hfuel : c.conn.pending.length + 1 < fuel) :
    (∃ c' : StreamConn, fillReadBuf P fuel (c.hangUp e) =
        (some (.error (.io (tornError e part))), c') ∧ c'.Ended ∧
      out = tunnelData (log.take (k + w))) ∨
    ∃ k' w' c', fillReadBuf P fuel (c.hangUp e) = (some (.ok ()), c'.hangUp e) ∧
      c'.readBuf ≠ [] ∧ Reading f log k' lost out c' ∧
      cutAt c'.conn.pending.length (log.drop k') = (w', part) ∧
      k' + w' = k + w := by
  induction fuel generalizing k w c with
  | zero => omega
  | succ fuel ih =>
      unfold fillReadBuf
      rw [show (c.hangUp e).readBuf = c.readBuf from rfl]
      by_cases hfull : c.readBuf ≠ []
      · rw [if_pos hfull]
        exact Or.inr ⟨k, w, c, rfl, hfull, hreading, hcut, rfl⟩
      · rw [if_neg hfull]
        have hempty : c.readBuf = [] := not_not.mp hfull
        cases w with
        | zero =>
            obtain ⟨c', hrecv, hended⟩ :=
              hreading.recvFramed_torn hlog hempty hcut
            rw [hrecv]
            have hdata := hreading.data
            rw [hempty, List.append_nil] at hdata
            exact Or.inl ⟨c', rfl, hended, hdata⟩
        | succ w =>
            obtain ⟨fr, c', hmem, hrecv, hnone, hless, hnext, hcut'⟩ :=
              hreading.recvFramed_whole (e := e) hlog hempty hcut
            have hgo := @ih (k + 1) w { c' with readBuf := fr.data } hnext hcut'
              (show c'.conn.pending.length + 1 < fuel by omega)
            rw [Nat.add_right_comm] at hgo
            have hsame : fr.data = [] → { c' with readBuf := fr.data } = c' := by
              intro hdata
              rw [hdata, ← hnone]
            simp only [hrecv, appendToNil_bytes]
            by_cases htcp : fr.type = frameTCPData
            · have hdata : fr.data = fr.payload := if_pos htcp
              rw [if_pos htcp]
              by_cases hpayload : fr.payload = []
              · rw [if_pos hpayload]
                rwa [hsame (hdata.trans hpayload)] at hgo
              · rw [if_neg hpayload, ← hdata]
                exact hgo
            · have hcover : fr.type ∈ [framePaddingOnly, framePing, framePong] := by
                have htype := hlog.types fr hmem
                simp only [tunnelTypes, List.mem_cons, List.not_mem_nil,
                  or_false] at htype ⊢
                tauto
              rw [if_neg htcp, if_pos hcover]
              rwa [hsame (if_neg htcp)] at hgo

theorem streamRead_ended {n : ℕ} (hended : c.Ended) :
    streamRead P n c = (some (.error (.io .closedPipe)), c) := by
  simp [streamRead, fillReadBuf, recvFramed, hended.stream_closed, hended.empty]

theorem Reading.read_torn
    {n : ℕ} (hlog : TunnelLog P f log) (hreading : Reading f log k lost out c)
    (hcut : cutAt c.conn.pending.length (log.drop k) = (w, part)) (hn : 0 < n) :
    (∃ c' : StreamConn, streamRead P n (c.hangUp e) =
        (some (.error (.io (tornError e part))), c') ∧ c'.Ended ∧
      out = tunnelData (log.take (k + w))) ∨
    ∃ k' w' c' b, streamRead P n (c.hangUp e) = (some (.ok b), c'.hangUp e) ∧
      b ≠ [] ∧ Reading f log k' lost (out ++ b) c' ∧
      cutAt c'.conn.pending.length (log.drop k') = (w', part) ∧
      k' + w' = k + w := by
  unfold streamRead
  rcases hreading.fill_torn (e := e) hlog hcut
      (Nat.lt_succ_self (c.conn.pending.length + 1)) with
    ⟨c', hfill, hended, hout⟩ | ⟨k', w', c', hfill, hfull, hnext, hcut', hsum⟩
  · refine Or.inl ⟨c', ?_, hended, hout⟩
    rw [show (c.hangUp e).conn.pending = c.conn.pending from rfl, hfill]
  · refine Or.inr ⟨k', w', { c' with readBuf := c'.readBuf.drop n },
      c'.readBuf.take n, ?_, ?_, ?_, hcut', hsum⟩
    · rw [show (c.hangUp e).conn.pending = c.conn.pending from rfl, hfill]
      rfl
    · simp [hfull]
      omega
    · exact ⟨hnext.le_length, hnext.stream_open, hnext.context, hnext.live,
        hnext.bytes, by rw [List.append_assoc, List.take_append_drop, hnext.data]⟩

/-! ## Reading on after the end -/

/-- Reads with buffers of the given sizes. -/
def reads (P : Primitives) (sizes : List ℕ) (c : StreamConn) :
    List (Option (Except EwpError Bytes)) :=
  (readerRun P (sizes.map .read) c).1

theorem reads_cons
    {n : ℕ} {sizes : List ℕ} {c c' : StreamConn}
    {result : Option (Except EwpError Bytes)}
    (hread : streamRead P n c = (result, c')) :
    reads P (n :: sizes) c = result :: reads P sizes c' := by
  simp [reads, readerRun, hread]

theorem reads_ended (sizes : List ℕ) (hended : c.Ended) :
    reads P sizes c =
      List.replicate sizes.length (some (.error (.io .closedPipe))) := by
  induction sizes with
  | nil => rfl
  | cons n sizes ih =>
      rw [reads_cons (streamRead_ended hended), ih, List.length_cons,
        List.replicate_succ]

/-- The whole frames come out, and then the error. -/
theorem Reading.reads_torn
    {sizes : List ℕ} (hlog : TunnelLog P f log) (hsizes : ∀ n ∈ sizes, 0 < n)
    (hreading : Reading f log k lost out c)
    (hcut : cutAt c.conn.pending.length (log.drop k) = (w, part)) :
    ∃ good closed,
      EndsIn (.io (tornError e part)) (reads P sizes (c.hangUp e)) good closed ∧
      out ++ good.flatten <+: tunnelData (log.take (k + w)) ∧
      (closed ≠ [] → out ++ good.flatten = tunnelData (log.take (k + w))) := by
  induction sizes generalizing k w out c with
  | nil =>
      refine ⟨[], [], ⟨rfl, by simp, Or.inl rfl⟩, ?_, by simp⟩
      have htaken : tunnelData (log.take k) <+: tunnelData (log.take (k + w)) := by
        rw [List.take_add, tunnelData_append]
        exact List.prefix_append _ _
      rw [List.flatten_nil, List.append_nil]
      exact List.IsPrefix.trans ⟨c.readBuf, hreading.data⟩ htaken
  | cons n sizes ih =>
      have hsizes' : ∀ n ∈ sizes, 0 < n :=
        fun n hmem => hsizes n (List.mem_cons_of_mem _ hmem)
      rcases hreading.read_torn (e := e) hlog hcut
          (hsizes n List.mem_cons_self) with
        ⟨c', hread, hended, hout⟩ | ⟨k', w', c', b, hread, hne, hnext, hcut', hsum⟩
      · refine ⟨[], _, ⟨?_, by simp, Or.inr ⟨sizes.length, rfl⟩⟩, ?_, ?_⟩
        · rw [reads_cons hread, reads_ended sizes hended]
          rfl
        · simp [hout]
        · simp [hout]
      · obtain ⟨good, closed, hends, hwithin, hall⟩ := ih hsizes' hnext hcut'
        rw [hsum] at hwithin hall
        refine ⟨b :: good, closed, ⟨?_, ?_, hends.last⟩, ?_, ?_⟩
        · rw [reads_cons hread, hends.results_eq]
          rfl
        · exact List.forall_mem_cons.mpr ⟨hne, hends.nonempty⟩
        · rwa [List.flatten_cons, ← List.append_assoc]
        · rwa [List.flatten_cons, ← List.append_assoc]

end Reader

/-- Every result but the last ones carries data, so enough reads reach the end. -/
theorem EndsIn.reached
    {err : EwpError} {results closed : List (Option (Except EwpError Bytes))}
    {good : List Bytes} {limit : ℕ} (hends : EndsIn err results good closed)
    (hdata : good.flatten.length ≤ limit) (hmany : limit < results.length) :
    closed ≠ [] := by
  rintro rfl
  have hlen : results.length = good.length := by
    rw [hends.results_eq]
    simp
  have hgood : good.length ≤ good.flatten.length := by
    have hone : ∀ b ∈ good, 1 ≤ b.length :=
      fun b hmem => List.length_pos_iff.mpr (hends.nonempty b hmem)
    rw [List.length_flatten]
    have hsum := List.card_nsmul_le_sum (good.map List.length) 1 (by simpa using hone)
    simpa using hsum
  omega

theorem reads_length (P : Primitives) (sizes : List ℕ) (c : StreamConn) :
    (reads P sizes c).length = sizes.length := by
  induction sizes generalizing c with
  | nil => rfl
  | cons n sizes ih =>
      rw [reads_cons (Prod.eta (streamRead P n c)).symm, List.length_cons, ih,
        List.length_cons]

/-- The reader of a tunnel whose connection ends with `e` after the bytes of
`ops`, wherever in the stream that is.  Reading on returns the rest of the data
of the frames that arrived whole, a prefix of what was written; then the error,
once; then `io.ErrClosedPipe`.  Data of the frame that was cut never comes out. -/
theorem torn_tunnel
    (P : Primitives) (keys : SessionKeys) (side : Side) (ps : List Bytes)
    (covers : List CoverCall) (schedule : List (ℕ × StreamEnv))
    (hguard : (tunnelPool P keys side ps covers).Admits TunnelGuard schedule)
    (ops : List ReaderOp) (hops : ∀ n, ReaderOp.read n ∈ ops → 0 < n)
    (log : List SentFrame)
    (hlog : ((tunnelPool P keys side ps covers).run schedule).shared.handed = log)
    (harrived : arrivals ops <+: wireBytes log)
    (whole part : ℕ) (hcut : cutAt (arrivals ops).length log = (whole, part))
    (e : IoError) (sizes : List ℕ) (hsizes : ∀ n ∈ sizes, 0 < n) :
    ∃ good closed,
      EndsIn (.io (tornError e part))
        (reads P sizes ((readerRun P ops (newReader keys side)).2.hangUp e))
        good closed ∧
      returned (readerRun P ops (newReader keys side)).1 ++ good.flatten <+:
        tunnelData (log.take whole) ∧
      tunnelData (log.take whole) <+: ps.flatten ∧
      (closed ≠ [] →
        returned (readerRun P ops (newReader keys side)).1 ++ good.flatten =
          tunnelData (log.take whole)) ∧
      (ps.flatten.length < sizes.length → closed ≠ []) := by
  obtain ⟨_, hopen, hwithin, _⟩ := tunnelPool_run hguard rfl
  rw [hlog] at hwithin
  have htunnel : TunnelLog P (newSecureStream keys side).send log := by
    rw [← hlog]
    exact ⟨hopen.ledger.frames, hopen.types, hopen.sizes⟩
  obtain ⟨tail, htail⟩ := harrived
  obtain ⟨_, k, hreading⟩ :=
    readerRun_reading htunnel hops (newReader_reading htail)
  rw [List.nil_append] at hreading
  -- the cut of the whole stream, seen from where the reader stands
  obtain ⟨w, hhere, hsum⟩ : ∃ w,
      cutAt (readerRun P ops (newReader keys side)).2.conn.pending.length
          (log.drop k) = (w, part) ∧ k + w = whole := by
    have hbytes := congrArg List.length hreading.bytes
    have hall := congrArg List.length htail
    rw [← List.take_append_drop k log, wireBytes_append] at hall
    simp only [List.length_append] at hbytes hall
    have hwhere : (arrivals ops).length = (wireBytes (log.take k)).length +
        (readerRun P ops (newReader keys side)).2.conn.pending.length := by
      omega
    rw [hwhere, cutAt_drop k _ log hreading.le_length] at hcut
    obtain ⟨hw, hpart⟩ := Prod.mk.inj hcut
    exact ⟨_, Prod.ext rfl hpart, (Nat.add_comm _ _).trans hw⟩
  have htaken : tunnelData (log.take whole) <+: ps.flatten := by
    rw [← List.take_append_drop whole log, tunnelData_append] at hwithin
    exact (List.prefix_append _ _).trans hwithin
  obtain ⟨good, closed, hends, hpart, hexact⟩ :=
    hreading.reads_torn (e := e) htunnel hsizes hhere
  rw [hsum] at hpart hexact
  refine ⟨good, closed, hends, hpart, htaken, hexact, fun hmany => ?_⟩
  have hlen := (hpart.trans htaken).length_le
  rw [List.length_append] at hlen
  have hgood : good.flatten.length ≤ ps.flatten.length := by omega
  exact hends.reached hgood (by rwa [reads_length])

namespace Transparent

def tunnelHanded : List SentFrame := (tunnel.run tunnelSchedule).shared.handed

/-- One byte of the only frame is missing. -/
def tornOps : List ReaderOp :=
  [.arrive ((wireBytes tunnelHanded).take ((wireBytes tunnelHanded).length - 1)),
    .read 5]

theorem tornOps_sizes (n : ℕ) (hmem : ReaderOp.read n ∈ tornOps) : 0 < n := by
  simp only [tornOps, List.mem_cons, List.not_mem_nil, or_false, reduceCtorEq,
    ReaderOp.read.injEq, false_or] at hmem
  omega

theorem tornOps_cut :
    cutAt (arrivals tornOps).length tunnelHanded =
      (0, (wireBytes tunnelHanded).length - 1) := by
  decide +kernel

theorem tornOps_error :
    tornError .eof ((wireBytes tunnelHanded).length - 1) = .unexpectedEOF := by
  decide +kernel

end Transparent

/-- A reader that misses the last byte gets no data and an unexpected end. -/
theorem torn_tunnel_last_byte :
    ∃ closed, EndsIn (.io .unexpectedEOF)
        (reads Transparent.suite [5, 5, 5]
          ((readerRun Transparent.suite Transparent.tornOps
            (newReader Transparent.keys .client)).2.hangUp .eof)) [] closed ∧
      closed ≠ [] := by
  obtain ⟨good, closed, hends, hpart, _, _, hreached⟩ :=
    torn_tunnel Transparent.suite Transparent.keys .client [[1, 2]] []
      Transparent.tunnelSchedule
      ⟨fun label _ _ _ => Transparent.framerEnv_guard label _,
        fun label _ _ _ => Transparent.framerEnv_guard label _, trivial⟩
      Transparent.tornOps Transparent.tornOps_sizes
      Transparent.tunnelHanded (by rw [Transparent.tunnelHanded, Transparent.tunnel])
      (by
        rw [Transparent.tornOps, arrivals, arrivals, arrivals, List.append_nil]
        exact List.take_prefix _ _)
      _ _ Transparent.tornOps_cut .eof [5, 5, 5] (by simp)
  rw [List.take_zero, tunnelData_nil, List.prefix_nil] at hpart
  have hnone : good = [] := by
    by_contra hsome
    obtain ⟨b, hmem⟩ := List.exists_mem_of_ne_nil good hsome
    have hall := List.flatten_eq_nil_iff.mp (List.append_eq_nil_iff.mp hpart).2
    exact hends.nonempty b hmem (hall b hmem)
  rw [hnone, Transparent.tornOps_error] at hends
  exact ⟨closed, hends, hreached (by simp)⟩

end SingEwp
