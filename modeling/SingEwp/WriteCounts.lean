import SingEwp.SoloRuns
import SingEwp.StreamConn

/-!
# What `Write` reports

`Write` counts the chunks of 65280 bytes that `SendTCPData` sent to the end, and
`SendTCPData` sends a chunk in pieces.  What the transport has taken when a piece
fails is a prefix of the argument; the count leaves out the pieces of the chunk
in which the failure fell.  Which frames a call is going to send follows from the
length of its argument and the draws (`framesOf`), so it can be said in advance at
which frames a failure makes the count wrong.
-/

namespace SingEwp

abbrev StreamMoment := Moment StreamLabel StreamEnv SecureStream

/-- The frames that an action handed over and the transport took. -/
def StreamMoment.taken (m : StreamMoment) : List SentFrame :=
  (m.after.handed.drop m.before.handed.length).filter
    (fun e => (m.env.sendMessage e.wire).isNone)

/-- The payload bytes that a call got across, in order. -/
def bytesTaken {α : Type} (proc : StreamProc α) (supply : ℕ → StreamEnv)
    (s : SecureStream) : Bytes :=
  ((proc.trace supply s).flatMap StreamMoment.taken).flatMap SentFrame.payload

section Calls

variable {P : Primitives}

theorem taken_of_handed_eq {m : StreamMoment}
    (hhanded : m.after.handed = m.before.handed) : m.taken = [] := by
  simp [StreamMoment.taken, hhanded]

@[simp] theorem bytesTaken_ret {α : Type} (a : α) (supply : ℕ → StreamEnv)
    (s : SecureStream) : bytesTaken (.ret a) supply s = [] := rfl

theorem bytesTaken_bind
    {α β : Type} (p : StreamProc α) (rest : α → StreamProc β)
    (supply : ℕ → StreamEnv) (s : SecureStream) :
    bytesTaken (p.bind rest) supply s =
      bytesTaken p supply s ++
        bytesTaken (rest (p.exec supply s).1) (p.exec supply s).2.2
          (p.exec supply s).2.1 := by
  simp only [bytesTaken, Proc.trace_bind, List.flatMap_append]

/-- An action that hands nothing over. -/
theorem bytesTaken_quiet
    {α : Type} {label : StreamLabel}
    {body : StreamEnv → SecureStream → α × SecureStream}
    (hquiet : ∀ env s, (body env s).2.handed = s.handed)
    (supply : ℕ → StreamEnv) (s : SecureStream) :
    bytesTaken (Proc.atomic label body) supply s = [] := by
  simp only [bytesTaken, Proc.trace_atomic, List.flatMap_cons, List.flatMap_nil,
    List.append_nil]
  rw [taken_of_handed_eq (hquiet (supply 0) s), List.flatMap_nil]

/-- How far a call has got with `data`: to the end if it succeeded, and not to the
end if it did not. -/
structure GotAcross (data taken : Bytes) (outcome : Outcome EwpError Unit) :
    Prop where
  taken_le : taken <+: data
  ok : outcome = .ok () → taken = data
  failed : outcome ≠ .ok () → taken.length < data.length

theorem GotAcross.of_ok {data : Bytes} : GotAcross data data (.ok ()) :=
  ⟨List.prefix_rfl, fun _ => rfl, fun hne => absurd rfl hne⟩

theorem GotAcross.of_failed
    {data : Bytes} {outcome : Outcome EwpError Unit} (hdata : data ≠ [])
    (hfailed : outcome ≠ .ok ()) : GotAcross data [] outcome :=
  ⟨List.nil_prefix, fun hok => absurd hok hfailed,
    fun _ => List.length_pos_iff.mpr hdata⟩

/-- One part of the data after the other: a failure of the first ends the call. -/
theorem GotAcross.bind
    {whole data more : Bytes} {p : StreamProc (Outcome EwpError Unit)}
    {rest : Outcome EwpError Unit → StreamProc (Outcome EwpError Unit)}
    {supply : ℕ → StreamEnv} {s : SecureStream} (hwhole : whole = data ++ more)
    (hfirst : GotAcross data (bytesTaken p supply s) (p.exec supply s).1)
    (hstop : ∀ failed, failed ≠ .ok () → rest failed = .ret failed)
    (hrest : ∀ supply' s', GotAcross more (bytesTaken (rest (.ok ())) supply' s')
      ((rest (.ok ())).exec supply' s').1) :
    GotAcross whole (bytesTaken (p.bind rest) supply s)
      ((p.bind rest).exec supply s).1 := by
  rw [hwhole, bytesTaken_bind, Proc.exec_bind]
  generalize p.exec supply s = out at hfirst ⊢
  obtain ⟨outcome, s', supply'⟩ := out
  by_cases hok : outcome = .ok ()
  · subst hok
    obtain ⟨hle, hdone, hshort⟩ := hrest supply' s'
    rw [hfirst.ok rfl]
    refine ⟨(List.prefix_append_right_inj data).mpr hle, ?_, ?_⟩
    · intro hall
      rw [hdone hall]
    · intro hfailed
      have hlt := hshort hfailed
      simp only [List.length_append]
      omega
  · dsimp only
    rw [hstop outcome hok, bytesTaken_ret, List.append_nil, Proc.exec_ret]
    have hlt := hfirst.failed hok
    refine ⟨hfirst.taken_le.trans (List.prefix_append _ _),
      fun hall => absurd hall hok, fun _ => ?_⟩
    rw [List.length_append]
    omega

theorem sendFrameLocked_gotAcross
    {t : FrameType} {metaBytes payload : Bytes} {padLen : ℤ} (hne : payload ≠ [])
    (supply : ℕ → StreamEnv) (s : SecureStream) :
    GotAcross payload
      (bytesTaken (Proc.atomic .sendLocked
        (sendFrameLocked P t metaBytes payload padLen)) supply s)
      (sendFrameLocked P t metaBytes payload padLen (supply 0) s).1 := by
  have hstep := sendFrameLocked_step P t metaBytes payload padLen (supply 0) s
  simp only [bytesTaken, Proc.trace_atomic, List.flatMap_cons, List.flatMap_nil,
    List.append_nil]
  generalize sendFrameLocked P t metaBytes payload padLen (supply 0) s = r
    at hstep ⊢
  cases hstep with
  | kept outcome cap failed =>
      rw [taken_of_handed_eq rfl]
      exact .of_failed hne (SendStep.ne_ok_of_failed failed)
  | taken cap fr htype hmeta hpayload hsend =>
      have htaken : StreamMoment.taken ⟨.sendLocked, supply 0, s,
          (s.emit P cap fr).countSent t (fr.wire P s.send) (supply 0).nowNs⟩ =
            [⟨fr.type, fr.metaBytes, fr.payload, fr.wire P s.send⟩] := by
        simp [StreamMoment.taken, SecureStream.countSent, SecureStream.emit,
          SecureStream.handOver, hsend]
      rw [htaken]
      simpa [hpayload] using GotAcross.of_ok
  | refused cap fr htype hmeta hpayload e hsend =>
      have htaken : StreamMoment.taken
          ⟨.sendLocked, supply 0, s, (s.emit P cap fr).close⟩ = [] := by
        simp [StreamMoment.taken, SecureStream.emit, SecureStream.handOver, hsend]
      rw [htaken]
      exact .of_failed hne (by simp)

theorem sendFrame_gotAcross
    {t : FrameType} {metaBytes payload : Bytes} {padLen : ℤ} (hne : payload ≠ [])
    (supply : ℕ → StreamEnv) (s : SecureStream) :
    GotAcross payload
      (bytesTaken (sendFrame P t metaBytes payload padLen) supply s)
      ((sendFrame P t metaBytes payload padLen).exec supply s).1 := by
  rw [sendFrame, Proc.bind_eq, bytesTaken_bind, Proc.exec_bind,
    Proc.exec_observe, Proc.observe, bytesTaken_quiet (fun _ _ => rfl),
    List.nil_append]
  dsimp only
  cases s.closed with
  | true => exact .of_failed hne (by simp)
  | false => exact sendFrameLocked_gotAcross hne _ s

theorem sendChunks_gotAcross
    {fuel : ℕ} {payload : Bytes} (hfuel : payload.length ≤ fuel)
    (supply : ℕ → StreamEnv) (s : SecureStream) :
    GotAcross payload (bytesTaken (sendChunks P fuel payload) supply s)
      ((sendChunks P fuel payload).exec supply s).1 := by
  induction fuel generalizing payload supply s with
  | zero =>
      have hnil : payload = [] := List.length_eq_zero_iff.mp (by omega)
      subst hnil
      exact .of_ok
  | succ fuel ih =>
      by_cases hnil : payload = []
      · subst hnil
        exact .of_ok
      rw [sendChunks, if_neg hnil, Proc.bind_eq, bytesTaken_bind,
        Proc.exec_bind, bytesTaken_quiet (fun _ _ => rfl), List.nil_append,
        Proc.exec_atomic]
      dsimp only
      have hpos := nextChunk_pos (List.length_pos_iff.mpr hnil) (supply 0).chunk
      generalize nextChunk payload.length (supply 0).chunk = chunk at hpos ⊢
      have hpiece : payload.take chunk ≠ [] := by
        simp only [ne_eq, List.take_eq_nil_iff, not_or]
        exact ⟨hpos.ne', hnil⟩
      have hshorter : (payload.drop chunk).length ≤ fuel := by
        rw [List.length_drop]
        omega
      refine GotAcross.bind (List.take_append_drop chunk payload).symm
        (sendFrame_gotAcross hpiece _ s) ?_ (fun supply' s' => ih hshorter supply' s')
      intro failed hfailed
      cases failed with
      | ok u => exact absurd rfl hfailed
      | error e => rfl
      | panic => rfl

theorem sendTCPData_gotAcross
    {payload : Bytes} (hne : payload ≠ []) (supply : ℕ → StreamEnv)
    (s : SecureStream) :
    GotAcross payload (bytesTaken (sendTCPData P payload) supply s)
      ((sendTCPData P payload).exec supply s).1 := by
  unfold sendTCPData
  split
  · exact sendFrame_gotAcross hne supply s
  · exact sendChunks_gotAcross le_rfl supply s

/-- What `Write` reports of the bytes it got across: all of them if it succeeded,
and otherwise those of the chunks that were finished. -/
structure Reports (p taken : Bytes) (written : ℕ)
    (result : ℕ × Outcome EwpError Unit) : Prop where
  taken_le : taken <+: p
  ok : result.2 = .ok () → taken = p ∧ result.1 = written + p.length
  failed : result.2 ≠ .ok () →
    taken.length < p.length ∧
      result.1 = written + taken.length / maxPayload * maxPayload

theorem Reports.of_nil (written : ℕ) : Reports [] [] written (written, .ok ()) :=
  ⟨List.prefix_rfl, fun _ => ⟨rfl, rfl⟩, fun hne => absurd rfl hne⟩

theorem Reports.of_chunk_failed
    {p taken : Bytes} {outcome : Outcome EwpError Unit}
    (hchunk : GotAcross (p.take maxPayload) taken outcome)
    (hfailed : outcome ≠ .ok ()) (written : ℕ) :
    Reports p taken written (written, outcome) := by
  have hlt := hchunk.failed hfailed
  have hmax : maxPayload = 65280 := rfl
  rw [List.length_take] at hlt
  refine ⟨hchunk.taken_le.trans (List.take_prefix _ _),
    fun hok => absurd hok hfailed, fun _ => ⟨by omega, ?_⟩⟩
  rw [hmax] at hlt ⊢
  omega

theorem Reports.of_chunk_sent
    {p taken : Bytes} {written : ℕ} {result : ℕ × Outcome EwpError Unit}
    (hrest : Reports (p.drop (p.take maxPayload).length) taken
      (written + (p.take maxPayload).length) result) :
    Reports p (p.take maxPayload ++ taken) written result := by
  have hmax : maxPayload = 65280 := rfl
  have hsplit : p.take maxPayload ++ p.drop (p.take maxPayload).length = p := by
    rw [List.length_take]
    rcases Nat.le_total maxPayload p.length with hlong | hshort
    · rw [min_eq_left hlong, List.take_append_drop]
    · rw [min_eq_right hshort, List.take_of_length_le hshort, List.drop_length,
        List.append_nil]
  have hlen : (p.take maxPayload).length = min maxPayload p.length :=
    List.length_take
  constructor
  · calc p.take maxPayload ++ taken
        <+: p.take maxPayload ++ p.drop (p.take maxPayload).length :=
          (List.prefix_append_right_inj _).mpr hrest.taken_le
      _ = p := hsplit
  · intro hok
    obtain ⟨hall, hcount⟩ := hrest.ok hok
    rw [List.length_drop] at hcount
    exact ⟨hall ▸ hsplit, by omega⟩
  · intro hfailed
    obtain ⟨hlt, hcount⟩ := hrest.failed hfailed
    -- something is left, so the chunk was a full one
    rw [List.length_drop] at hlt
    rw [List.length_append]
    rw [hlen, hmax] at hlt hcount ⊢
    constructor <;> omega

theorem writeChunks_reports
    {fuel : ℕ} {p : Bytes} (hfuel : p.length ≤ fuel) (written : ℕ)
    (supply : ℕ → StreamEnv) (s : SecureStream) :
    Reports p (bytesTaken (writeChunks P fuel p written) supply s) written
      ((writeChunks P fuel p written).exec supply s).1 := by
  induction fuel generalizing p written supply s with
  | zero =>
      have hnil : p = [] := List.length_eq_zero_iff.mp (by omega)
      subst hnil
      exact .of_nil written
  | succ fuel ih =>
      by_cases hnil : p = []
      · subst hnil
        exact .of_nil written
      have hchunk : p.take maxPayload ≠ [] := by
        simp [List.take_eq_nil_iff, hnil]
      have hfirst := sendTCPData_gotAcross (P := P) hchunk supply s
      rw [writeChunks, if_neg hnil, Proc.bind_eq, bytesTaken_bind,
        Proc.exec_bind]
      generalize (sendTCPData P (p.take maxPayload)).exec supply s = out
        at hfirst ⊢
      obtain ⟨outcome, s', supply'⟩ := out
      dsimp only at hfirst ⊢
      cases outcome with
      | ok u =>
          have hshorter : (p.drop (p.take maxPayload).length).length ≤ fuel := by
            have hpos := List.length_pos_iff.mpr hchunk
            rw [List.length_drop]
            omega
          rw [hfirst.ok rfl]
          exact .of_chunk_sent (ih hshorter _ supply' s')
      | error e =>
          simpa only [Proc.pure_eq, bytesTaken_ret, List.append_nil, Proc.exec_ret]
            using Reports.of_chunk_failed hfirst (by simp) written
      | panic =>
          simpa only [Proc.pure_eq, bytesTaken_ret, List.append_nil, Proc.exec_ret]
            using Reports.of_chunk_failed hfirst (by simp) written

theorem streamWrite_reports (P : Primitives) (p : Bytes)
    (supply : ℕ → StreamEnv) (s : SecureStream) :
    Reports p (bytesTaken (streamWrite P p) supply s) 0
      ((streamWrite P p).exec supply s).1 := by
  unfold streamWrite
  split
  · rename_i hnil
    subst hnil
    exact .of_nil 0
  · exact writeChunks_reports le_rfl 0 supply s

theorem bytesTaken_sendChunks_succ
    {fuel : ℕ} {payload : Bytes} {supply : ℕ → StreamEnv} {s s' : SecureStream}
    {chunk : ℕ} (hchunk : nextChunk payload.length (supply 0).chunk = chunk)
    (hpiece : payload.take chunk ≠ []) (hopen : s.closed = false)
    (hsent : sendFrameLocked P frameTCPData [] (payload.take chunk) (-1)
      (supply (1 + 1)) s = (.ok (), s')) :
    bytesTaken (sendChunks P (fuel + 1) payload) supply s =
      payload.take chunk ++
        bytesTaken (sendChunks P fuel (payload.drop chunk))
          (fun k => supply (k + 1 + 1 + 1)) s' := by
  have hne : payload ≠ [] := by
    rintro rfl
    simp at hpiece
  have hframe : (sendFrame P frameTCPData [] (payload.take chunk) (-1)).exec
      (fun k => supply (k + 1)) s =
        (.ok (), s', fun k => supply (k + 1 + 1 + 1)) :=
    sendFrame_exec hopen hsent
  have hacross := @sendFrame_gotAcross P frameTCPData [] _ (-1) hpiece
    (fun k => supply (k + 1)) s
  rw [hframe] at hacross
  rw [sendChunks, if_neg hne, Proc.bind_eq, bytesTaken_bind,
    bytesTaken_quiet (fun _ _ => rfl), List.nil_append, Proc.exec_atomic, hchunk]
  dsimp only
  rw [Proc.bind_eq, bytesTaken_bind, hframe, hacross.ok rfl]

end Calls

/-! ## Where the transport starts to fail -/

/-- A frame that `Write` is going to send: the length of its payload, and what its
send will meet. -/
structure Cut where
  len : ℕ
  env : StreamEnv

/-- The pieces in which the loop of `SendTCPData` cuts `len` bytes, and what is
left of the supply.  One action draws the length of a piece, the next two are its
`sendFrame`. -/
def pieceCuts : ℕ → ℕ → (ℕ → StreamEnv) → List Cut × (ℕ → StreamEnv)
  | 0, _, supply => ([], supply)
  | fuel + 1, len, supply =>
      if len = 0 then ([], supply)
      else
        let chunk := nextChunk len (supply 0).chunk
        let rest := pieceCuts fuel (len - chunk) (fun k => supply (k + 1 + 1 + 1))
        (⟨chunk, supply (1 + 1)⟩ :: rest.1, rest.2)

/-- The frames of one call of `SendTCPData`. -/
def chunkCuts (len : ℕ) (supply : ℕ → StreamEnv) :
    List Cut × (ℕ → StreamEnv) :=
  if len ≤ reshapeThreshold then
    ([⟨len, supply 1⟩], fun k => supply (k + 1 + 1))
  else pieceCuts len len supply

/-- The frames of `Write`, chunk by chunk. -/
def writeCuts : ℕ → ℕ → (ℕ → StreamEnv) → List (List Cut)
  | 0, _, _ => []
  | fuel + 1, len, supply =>
      if len = 0 then []
      else
        let chunk := min maxPayload len
        (chunkCuts chunk supply).1 ::
          writeCuts fuel (len - chunk) (chunkCuts chunk supply).2

def cutsLen (cuts : List Cut) : ℕ := (cuts.map Cut.len).sum

@[simp] theorem cutsLen_nil : cutsLen [] = 0 := rfl

@[simp] theorem cutsLen_cons (cut : Cut) (rest : List Cut) :
    cutsLen (cut :: rest) = cut.len + cutsLen rest := by
  simp [cutsLen]

@[simp] theorem cutsLen_append (first rest : List Cut) :
    cutsLen (first ++ rest) = cutsLen first + cutsLen rest := by
  simp [cutsLen]

/-- The transport takes `k` messages and refuses the next one; the random source
serves the pads. -/
structure FailsAt (k : ℕ) (cuts : List Cut) : Prop where
  pads : ∀ cut ∈ cuts, ∀ n, cut.env.pad n ≠ none
  takes : ∀ cut ∈ cuts.take k, cut.env.TakesFrames
  refuses : ∀ cut, cuts[k]? = some cut → ∀ w, cut.env.sendMessage w ≠ none

section Cuts

variable {P : Primitives} {k : ℕ}

theorem FailsAt.left {first rest : List Cut} (hfails : FailsAt k (first ++ rest)) :
    FailsAt k first where
  pads := fun cut hcut => hfails.pads cut (List.mem_append_left _ hcut)
  takes := by
    intro cut hcut
    apply hfails.takes cut
    rw [List.take_append]
    exact List.mem_append_left _ hcut
  refuses := by
    intro cut hcut
    apply hfails.refuses cut
    rwa [List.getElem?_append_left (List.getElem?_eq_some_iff.mp hcut).1]

theorem FailsAt.right
    {first rest : List Cut} (hfails : FailsAt k (first ++ rest))
    (hle : first.length ≤ k) : FailsAt (k - first.length) rest where
  pads := fun cut hcut => hfails.pads cut (List.mem_append_right _ hcut)
  takes := by
    intro cut hcut
    apply hfails.takes cut
    rw [List.take_append]
    exact List.mem_append_right _ hcut
  refuses := by
    intro cut hcut
    apply hfails.refuses cut
    rwa [List.getElem?_append_right hle]

theorem FailsAt.head_takes
    {cut : Cut} {rest : List Cut} (hfails : FailsAt (k + 1) (cut :: rest)) :
    cut.env.TakesFrames :=
  hfails.takes cut (by simp)

theorem FailsAt.tail
    {cut : Cut} {rest : List Cut} (hfails : FailsAt (k + 1) (cut :: rest)) :
    FailsAt k rest := by
  rw [← List.singleton_append] at hfails
  exact hfails.right (by simp)

/-- A refused frame gets nothing across. -/
theorem sendFrame_refused
    {t : FrameType} {metaBytes payload : Bytes} {padLen : ℤ}
    {supply : ℕ → StreamEnv} (hrefuses : ∀ w, (supply 1).sendMessage w ≠ none)
    (s : SecureStream) :
    bytesTaken (sendFrame P t metaBytes payload padLen) supply s = [] ∧
      ((sendFrame P t metaBytes payload padLen).exec supply s).1 ≠ .ok () := by
  rw [sendFrame, Proc.bind_eq, bytesTaken_bind, Proc.exec_bind,
    Proc.exec_observe, Proc.observe, bytesTaken_quiet (fun _ _ => rfl),
    List.nil_append]
  dsimp only
  cases s.closed with
  | true => exact ⟨rfl, by simp⟩
  | false =>
      have hstep := sendFrameLocked_step P t metaBytes payload padLen (supply 1) s
      simp only [Bool.false_eq_true, if_false, bytesTaken, Proc.trace_atomic,
        Proc.exec_atomic, List.flatMap_cons, List.flatMap_nil, List.append_nil,
        zero_add]
      generalize sendFrameLocked P t metaBytes payload padLen (supply 1) s = r
        at hstep ⊢
      have hnone : ∀ after : SecureStream,
          StreamMoment.taken ⟨.sendLocked, supply 1, s, after⟩ = [] := by
        intro after
        simp [StreamMoment.taken, Option.isNone_iff_eq_none, hrefuses]
      rw [hnone]
      refine ⟨rfl, ?_⟩
      cases hstep with
      | kept outcome cap failed => exact SendStep.ne_ok_of_failed failed
      | taken cap fr htype hmeta hpayload hsend => exact absurd hsend (hrefuses _)
      | refused cap fr htype hmeta hpayload e hsend => simp

/-- How a call that sends `data` in these frames ends: it gets all of them across,
or those before the refused one. -/
structure FollowsCuts (data : Bytes) (cuts : List Cut × (ℕ → StreamEnv)) (k : ℕ)
    (proc : StreamProc (Outcome EwpError Unit)) (supply : ℕ → StreamEnv)
    (s : SecureStream) : Prop where
  sent : cuts.1.length ≤ k →
    ∃ s', proc.exec supply s = (.ok (), s', cuts.2) ∧ s'.closed = false
  stopped : k < cuts.1.length → (proc.exec supply s).1 ≠ .ok () ∧
    bytesTaken proc supply s = data.take (cutsLen (cuts.1.take k))

/-- A piece that the transport takes. -/
theorem sendFrameLocked_cut
    {piece : Bytes} {env : StreamEnv} {s : SecureStream} (htakes : env.TakesFrames)
    (hpads : ∀ n, env.pad n ≠ none) (hpiece : piece.length ≤ reshapeMax)
    (hopen : s.closed = false) :
    ∃ s', sendFrameLocked P frameTCPData [] piece (-1) env s = (.ok (), s') ∧
      s'.closed = false := by
  obtain ⟨hok, hclosed⟩ :=
    @sendFrameLocked_piece P env s piece htakes hpads hpiece
  generalize sendFrameLocked P frameTCPData [] piece (-1) env s = r at hok hclosed
  obtain ⟨outcome, s'⟩ := r
  subst hok
  exact ⟨s', rfl, hclosed.trans hopen⟩

theorem sendChunks_followsCuts
    {fuel : ℕ} {payload : Bytes} {supply : ℕ → StreamEnv} {s : SecureStream}
    (hfuel : payload.length ≤ fuel) (hopen : s.closed = false)
    (hfails : FailsAt k (pieceCuts fuel payload.length supply).1) :
    FollowsCuts payload (pieceCuts fuel payload.length supply) k
      (sendChunks P fuel payload) supply s := by
  induction fuel generalizing payload supply s k with
  | zero =>
      have hnil : payload = [] := List.length_eq_zero_iff.mp (by omega)
      subst hnil
      exact ⟨fun _ => ⟨s, rfl, hopen⟩, fun hlt => absurd hlt (Nat.not_lt_zero k)⟩
  | succ fuel ih =>
      by_cases hnil : payload = []
      · subst hnil
        exact ⟨fun _ => ⟨s, rfl, hopen⟩, fun hlt => absurd hlt (Nat.not_lt_zero k)⟩
      have hlen : payload.length ≠ 0 := by simpa using hnil
      have hpos := nextChunk_pos (Nat.pos_of_ne_zero hlen) (supply 0).chunk
      have hmax := nextChunk_le payload.length (supply 0).chunk
      rw [pieceCuts, if_neg hlen] at hfails ⊢
      generalize hchunk : nextChunk payload.length (supply 0).chunk = chunk
        at hpos hmax hfails ⊢
      dsimp only at hfails ⊢
      have hpiece : payload.take chunk ≠ [] := by
        simp only [ne_eq, List.take_eq_nil_iff, not_or]
        exact ⟨hpos.ne', hnil⟩
      cases k with
      | zero =>
          -- the first piece is refused
          obtain ⟨hnone, hfailed⟩ := @sendFrame_refused P frameTCPData []
            (payload.take chunk) (-1) (fun k => supply (k + 1))
            (hfails.refuses _ rfl) s
          refine ⟨fun hle => absurd hle (by simp), fun _ => ?_⟩
          rw [sendChunks, if_neg hnil, Proc.bind_eq, bytesTaken_bind,
            Proc.exec_bind, bytesTaken_quiet (fun _ _ => rfl), List.nil_append,
            Proc.exec_atomic, hchunk]
          dsimp only
          rw [Proc.bind_eq, bytesTaken_bind, Proc.exec_bind, hnone,
            List.nil_append]
          generalize (sendFrame P frameTCPData [] (payload.take chunk) (-1)).exec
            (fun k => supply (k + 1)) s = out at hfailed ⊢
          obtain ⟨outcome, s', supply'⟩ := out
          cases outcome with
          | ok u => exact absurd rfl hfailed
          | error e => exact ⟨by simp, by simp⟩
          | panic => exact ⟨by simp, by simp⟩
      | succ k =>
          obtain ⟨s', hlocked, hopen'⟩ := @sendFrameLocked_cut P _ _ s
            hfails.head_takes (hfails.pads _ List.mem_cons_self)
            ((List.length_take_le _ _).trans hmax) hopen
          have hshorter : (payload.drop chunk).length ≤ fuel := by
            rw [List.length_drop]
            omega
          have hdrop : payload.length - chunk = (payload.drop chunk).length :=
            List.length_drop.symm
          rw [hdrop] at hfails ⊢
          obtain ⟨hsent, hstopped⟩ := ih hshorter hopen' hfails.tail
          refine ⟨fun hle => ?_, fun hlt => ?_⟩
          · rw [sendChunks_exec_succ hnil hchunk hopen hlocked]
            exact hsent (Nat.le_of_succ_le_succ hle)
          · obtain ⟨hfailed, htaken⟩ := hstopped (Nat.lt_of_succ_lt_succ hlt)
            rw [sendChunks_exec_succ hnil hchunk hopen hlocked,
              bytesTaken_sendChunks_succ hchunk hpiece hopen hlocked, htaken]
            refine ⟨hfailed, ?_⟩
            rw [List.take_succ_cons, cutsLen_cons, List.take_add]

theorem sendTCPData_followsCuts
    {payload : Bytes} {supply : ℕ → StreamEnv} {s : SecureStream}
    (hopen : s.closed = false)
    (hfails : FailsAt k (chunkCuts payload.length supply).1) :
    FollowsCuts payload (chunkCuts payload.length supply) k
      (sendTCPData P payload) supply s := by
  unfold chunkCuts at hfails ⊢
  unfold sendTCPData
  split
  · rename_i hshort
    rw [if_pos hshort] at hfails
    cases k with
    | zero =>
        obtain ⟨hnone, hfailed⟩ := @sendFrame_refused P frameTCPData [] payload
          (-1) supply (hfails.refuses _ rfl) s
        exact ⟨fun hle => absurd hle (by simp), fun _ => ⟨hfailed, by
          simp [hnone]⟩⟩
    | succ k =>
        have hpiece : payload.length ≤ reshapeMax :=
          hshort.trans (by decide)
        obtain ⟨s', hlocked, hopen'⟩ := @sendFrameLocked_cut P _ _ s
          hfails.head_takes (hfails.pads _ List.mem_cons_self) hpiece hopen
        refine ⟨fun _ => ⟨s', sendFrame_exec hopen hlocked, hopen'⟩, ?_⟩
        intro hlt
        simp at hlt
  · rename_i hlong
    rw [if_neg hlong] at hfails
    exact sendChunks_followsCuts le_rfl hopen hfails

theorem nextChunk_le_length (len : ℕ) (draw : RandRead) :
    nextChunk len draw ≤ len := by
  unfold nextChunk
  dsimp only
  split_ifs <;> omega

/-- Nonempty frames that make up `len` bytes. -/
structure CutsInto (len : ℕ) (cuts : List Cut) : Prop where
  total : cutsLen cuts = len
  pos : ∀ cut ∈ cuts, 0 < cut.len

theorem pieceCuts_into {fuel len : ℕ} (hfuel : len ≤ fuel)
    (supply : ℕ → StreamEnv) : CutsInto len (pieceCuts fuel len supply).1 := by
  induction fuel generalizing len supply with
  | zero =>
      obtain rfl : len = 0 := Nat.le_zero.mp hfuel
      exact ⟨rfl, by simp [pieceCuts]⟩
  | succ fuel ih =>
      by_cases hlen : len = 0
      · subst hlen
        exact ⟨rfl, by simp [pieceCuts]⟩
      have hpos := nextChunk_pos (Nat.pos_of_ne_zero hlen) (supply 0).chunk
      have hle := nextChunk_le_length len (supply 0).chunk
      rw [pieceCuts, if_neg hlen]
      generalize nextChunk len (supply 0).chunk = chunk at hpos hle ⊢
      obtain ⟨htotal, hall⟩ := ih (by omega : len - chunk ≤ fuel)
        (fun k => supply (k + 1 + 1 + 1))
      refine ⟨?_, ?_⟩
      · rw [cutsLen_cons, htotal]
        exact Nat.add_sub_cancel' hle
      · intro cut hcut
        rcases List.mem_cons.mp hcut with rfl | hrest
        · exact hpos
        · exact hall cut hrest

theorem chunkCuts_into {len : ℕ} (hlen : 0 < len) (supply : ℕ → StreamEnv) :
    CutsInto len (chunkCuts len supply).1 := by
  unfold chunkCuts
  split
  · exact ⟨by simp, by simpa using hlen⟩
  · exact pieceCuts_into le_rfl supply

theorem CutsInto.take_lt
    {len : ℕ} {cuts : List Cut} (hcuts : CutsInto len cuts) (hk : k < cuts.length) :
    cutsLen (cuts.take k) < len ∧ (cutsLen (cuts.take k) = 0 ↔ k = 0) := by
  have hsplit : cutsLen (cuts.take k) + cutsLen (cuts.drop k) = len := by
    rw [← cutsLen_append, List.take_append_drop, hcuts.total]
  have hpositive : ∀ {part : List Cut}, (∀ cut ∈ part, 0 < cut.len) → part ≠ [] →
      0 < cutsLen part := by
    intro part hpart hne
    cases part with
    | nil => exact absurd rfl hne
    | cons cut rest =>
        have := hpart cut List.mem_cons_self
        rw [cutsLen_cons]
        omega
  have hdrop := hpositive
    (fun cut hcut => hcuts.pos cut (List.mem_of_mem_drop hcut))
    (by simpa using hk : cuts.drop k ≠ [])
  refine ⟨by omega, ?_, ?_⟩
  · intro hzero
    by_contra hne
    have htake := hpositive
      (fun cut hcut => hcuts.pos cut (List.mem_of_mem_take hcut))
      (by
        rw [ne_eq, List.take_eq_nil_iff, not_or]
        exact ⟨hne, List.ne_nil_of_length_pos (by omega)⟩ : cuts.take k ≠ [])
    omega
  · rintro rfl
    simp

theorem CutsInto.length_pos
    {len : ℕ} {cuts : List Cut} (hcuts : CutsInto len cuts) (hlen : 0 < len) :
    0 < cuts.length := by
  cases cuts with
  | nil => simp [← hcuts.total] at hlen
  | cons cut rest => simp

/-- What is in front of the refused frame is a number of whole chunks exactly if
the frame is the first of its chunk. -/
theorem writeCuts_whole_iff
    {fuel len : ℕ} (hfuel : len ≤ fuel) (supply : ℕ → StreamEnv)
    (hk : k < (writeCuts fuel len supply).flatten.length) :
    maxPayload ∣ cutsLen ((writeCuts fuel len supply).flatten.take k) ↔
      ∃ m, k = ((writeCuts fuel len supply).take m).flatten.length := by
  induction fuel generalizing len supply k with
  | zero => simp [writeCuts] at hk
  | succ fuel ih =>
      by_cases hlen : len = 0
      · simp [writeCuts, hlen] at hk
      have hmax : maxPayload = 65280 := rfl
      rw [writeCuts, if_neg hlen] at hk ⊢
      dsimp only at hk ⊢
      have hchunk : 0 < min maxPayload len := by omega
      have hinto := chunkCuts_into hchunk supply
      have hsome := hinto.length_pos hchunk
      generalize hcuts : chunkCuts (min maxPayload len) supply = cuts
        at hk hinto hsome ⊢
      rw [List.flatten_cons] at hk ⊢
      by_cases hfirst : k < cuts.1.length
      · -- the refused frame is in the first chunk
        obtain ⟨hlt, hzero⟩ := hinto.take_lt hfirst
        rw [List.take_append_of_le_length hfirst.le]
        constructor
        · intro hdvd
          refine ⟨0, ?_⟩
          simpa using hzero.mp (Nat.eq_zero_of_dvd_of_lt hdvd (by omega))
        · rintro ⟨m, hm⟩
          cases m with
          | zero =>
              obtain rfl : k = 0 := by simpa using hm
              simp
          | succ m =>
              simp only [List.take_succ_cons, List.flatten_cons,
                List.length_append] at hm
              omega
      · have hge : cuts.1.length ≤ k := not_lt.mp hfirst
        have hk' : k - cuts.1.length <
            (writeCuts fuel (len - min maxPayload len) cuts.2).flatten.length := by
          rw [List.length_append] at hk
          omega
        -- something comes after the first chunk, so it is a full one
        have hfull : min maxPayload len = maxPayload := by
          by_contra hne
          have hrest : len - min maxPayload len = 0 := by omega
          rw [hrest] at hk'
          cases fuel <;> simp [writeCuts] at hk'
        rw [List.take_append, cutsLen_append, List.take_of_length_le hge,
          hinto.total, hfull, Nat.dvd_add_self_left]
        rw [hfull] at hk'
        rw [ih (by omega) cuts.2 hk']
        constructor
        · rintro ⟨m, hm⟩
          refine ⟨m + 1, ?_⟩
          rw [List.take_succ_cons, List.flatten_cons, List.length_append, ← hm]
          omega
        · rintro ⟨m, hm⟩
          cases m with
          | zero =>
              simp only [List.take_zero, List.flatten_nil, List.length_nil] at hm
              omega
          | succ m =>
              rw [List.take_succ_cons, List.flatten_cons, List.length_append] at hm
              exact ⟨m, by omega⟩

/-- `Write` gets across the frames before the refused one. -/
theorem writeChunks_followsCuts
    {fuel : ℕ} {p : Bytes} (hfuel : p.length ≤ fuel) (written : ℕ)
    {supply : ℕ → StreamEnv} {s : SecureStream} (hopen : s.closed = false)
    (hfails : FailsAt k (writeCuts fuel p.length supply).flatten) :
    ((writeCuts fuel p.length supply).flatten.length ≤ k →
      ((writeChunks P fuel p written).exec supply s).1.2 = .ok ()) ∧
    (k < (writeCuts fuel p.length supply).flatten.length →
      ((writeChunks P fuel p written).exec supply s).1.2 ≠ .ok ()) ∧
    bytesTaken (writeChunks P fuel p written) supply s =
      p.take (cutsLen ((writeCuts fuel p.length supply).flatten.take k)) := by
  induction fuel generalizing p written supply s k with
  | zero =>
      have hnil : p = [] := List.length_eq_zero_iff.mp (by omega)
      subst hnil
      exact ⟨fun _ => rfl, fun hlt => absurd hlt (Nat.not_lt_zero k),
        List.take_nil.symm⟩
  | succ fuel ih =>
      by_cases hnil : p = []
      · subst hnil
        exact ⟨fun _ => rfl, fun hlt => absurd hlt (Nat.not_lt_zero k),
        List.take_nil.symm⟩
      have hlen : p.length ≠ 0 := by simpa using hnil
      have hchunk : p.take maxPayload ≠ [] := by
        simp [List.take_eq_nil_iff, hnil]
      have hsize : min maxPayload p.length = (p.take maxPayload).length :=
        List.length_take.symm
      rw [writeCuts, if_neg hlen, hsize] at hfails ⊢
      dsimp only at hfails ⊢
      rw [List.flatten_cons] at hfails ⊢
      have hfirst := @sendTCPData_followsCuts P k (p.take maxPayload) supply s hopen
        hfails.left
      have hacross := sendTCPData_gotAcross (P := P) hchunk supply s
      have hinto := chunkCuts_into (List.length_pos_iff.mpr hchunk) supply
      generalize chunkCuts (p.take maxPayload).length supply = cuts
        at hfirst hfails hinto ⊢
      rw [writeChunks, if_neg hnil, Proc.bind_eq, bytesTaken_bind, Proc.exec_bind]
      by_cases hstops : k < cuts.1.length
      · -- the refused frame is in the first chunk
        obtain ⟨hfailed, htaken⟩ := hfirst.stopped hstops
        have hshort := (hinto.take_lt hstops).1
        rw [htaken, List.take_append_of_le_length hstops.le, List.take_take,
          min_eq_left (by omega)]
        generalize (sendTCPData P (p.take maxPayload)).exec supply s = out
          at hfailed ⊢
        obtain ⟨outcome, s', supply'⟩ := out
        have hmore : ¬(cuts.1 ++ (writeCuts fuel
            (p.length - (p.take maxPayload).length) cuts.2).flatten).length ≤ k := by
          rw [List.length_append]
          omega
        cases outcome with
        | ok u => exact absurd rfl hfailed
        | error e =>
            exact ⟨fun hle => absurd hle hmore, fun _ => by simp, by simp⟩
        | panic => exact ⟨fun hle => absurd hle hmore, fun _ => by simp, by simp⟩
      · have hge : cuts.1.length ≤ k := not_lt.mp hstops
        obtain ⟨s', hexec, hopen'⟩ := hfirst.sent hge
        rw [hexec] at hacross ⊢
        dsimp only
        have hshorter : (p.drop (p.take maxPayload).length).length ≤ fuel := by
          have hpos := List.length_pos_iff.mpr hchunk
          rw [List.length_drop]
          omega
        have hdrop : p.length - (p.take maxPayload).length =
            (p.drop (p.take maxPayload).length).length := List.length_drop.symm
        rw [hdrop] at hfails ⊢
        obtain ⟨hdone, hstopped, htaken⟩ := ih hshorter
          (written + (p.take maxPayload).length) hopen' (hfails.right hge)
        refine ⟨fun hle => hdone ?_, fun hlt => hstopped ?_, ?_⟩
        · rw [List.length_append] at hle
          omega
        · rw [List.length_append] at hlt
          omega
        · rw [hacross.ok rfl, htaken, List.take_append,
            List.take_of_length_le hge, cutsLen_append, hinto.total, List.take_add]
          congr 1
          rw [List.length_take, List.take_eq_take_iff]
          simp

end Cuts

/-- The count is the number of bytes taken, and they are that prefix. -/
def CountsTaken (P : Primitives) (p : Bytes) (supply : ℕ → StreamEnv)
    (s : SecureStream) : Prop :=
  ((streamWrite P p).exec supply s).1.1 =
      (bytesTaken (streamWrite P p) supply s).length ∧
    bytesTaken (streamWrite P p) supply s =
      p.take ((streamWrite P p).exec supply s).1.1

/-- The frames in which `Write` is going to send `p`, chunk by chunk. -/
def framesOf (p : Bytes) (supply : ℕ → StreamEnv) : List (List Cut) :=
  writeCuts p.length p.length supply

section Counts

variable {P : Primitives} {p : Bytes} {supply : ℕ → StreamEnv} {s : SecureStream}

theorem countsTaken_iff_whole :
    CountsTaken P p supply s ↔
      ((streamWrite P p).exec supply s).1.2 = .ok () ∨
        maxPayload ∣ (bytesTaken (streamWrite P p) supply s).length := by
  have hreports := streamWrite_reports P p supply s
  unfold CountsTaken
  generalize bytesTaken (streamWrite P p) supply s = taken at hreports ⊢
  generalize ((streamWrite P p).exec supply s).1 = result at hreports ⊢
  have hprefix := List.prefix_iff_eq_take.mp hreports.taken_le
  by_cases hok : result.2 = .ok ()
  · obtain ⟨hall, hcount⟩ := hreports.ok hok
    rw [zero_add] at hcount
    simp [hok, hall, hcount]
  · have hcount := (hreports.failed hok).2
    rw [zero_add] at hcount
    simp only [hok, false_or]
    constructor
    · rintro ⟨hsame, -⟩
      exact ⟨_, (hsame.symm.trans hcount).trans (Nat.mul_comm _ _)⟩
    · intro hwhole
      rw [Nat.div_mul_cancel hwhole] at hcount
      exact ⟨hcount, by rw [hcount]; exact hprefix⟩

theorem streamWrite_followsCuts
    {k : ℕ} (hopen : s.closed = false)
    (hfails : FailsAt k (framesOf p supply).flatten) :
    (((streamWrite P p).exec supply s).1.2 = .ok () ↔
      (framesOf p supply).flatten.length ≤ k) ∧
    bytesTaken (streamWrite P p) supply s =
      p.take (cutsLen ((framesOf p supply).flatten.take k)) := by
  unfold streamWrite
  by_cases hnil : p = []
  · subst hnil
    rw [if_pos rfl]
    exact ⟨iff_of_true rfl (Nat.zero_le k), List.take_nil.symm⟩
  rw [if_neg hnil]
  obtain ⟨hdone, hstopped, htaken⟩ :=
    @writeChunks_followsCuts P k _ p le_rfl 0 supply s hopen hfails
  refine ⟨⟨fun hok => ?_, hdone⟩, htaken⟩
  by_contra hlt
  exact hstopped (not_le.mp hlt) hok

end Counts

/-- Whatever fails, what the transport took is a prefix of the argument, and after
a failure the count is rounded down to whole chunks.  If the transport takes `k`
frames and refuses the next one, it has the bytes of these, and the count is right
exactly if `Write` has no further frame, or the refused one is the first of its
chunk. -/
theorem write_counts_taken_iff
    (P : Primitives) (p : Bytes) (supply : ℕ → StreamEnv) (s : SecureStream) :
    bytesTaken (streamWrite P p) supply s <+: p ∧
      (((streamWrite P p).exec supply s).1.2 ≠ .ok () →
        ((streamWrite P p).exec supply s).1.1 =
          (bytesTaken (streamWrite P p) supply s).length / maxPayload *
            maxPayload) ∧
      ∀ k, s.closed = false → FailsAt k (framesOf p supply).flatten →
        bytesTaken (streamWrite P p) supply s =
            p.take (cutsLen ((framesOf p supply).flatten.take k)) ∧
          (CountsTaken P p supply s ↔
            (framesOf p supply).flatten.length ≤ k ∨
              ∃ m, k = ((framesOf p supply).take m).flatten.length) := by
  have hreports := streamWrite_reports P p supply s
  refine ⟨hreports.taken_le, ?_, ?_⟩
  · intro hfailed
    simpa using (hreports.failed hfailed).2
  · intro k hopen hfails
    obtain ⟨hok, htaken⟩ := streamWrite_followsCuts (P := P) hopen hfails
    refine ⟨htaken, ?_⟩
    rw [countsTaken_iff_whole, hok]
    by_cases hall : (framesOf p supply).flatten.length ≤ k
    · exact iff_of_true (Or.inl hall) (Or.inl hall)
    · -- not everything was taken, so the frames end inside the argument
      have hlt := (hreports.failed (mt hok.mp hall)).1
      have hsize : (bytesTaken (streamWrite P p) supply s).length =
          cutsLen ((framesOf p supply).flatten.take k) := by
        rw [htaken, List.length_take] at hlt ⊢
        omega
      rw [hsize, or_iff_right hall, or_iff_right hall]
      exact writeCuts_whole_iff le_rfl supply (not_le.mp hall)

/-! ## Failures at a chunk and inside one -/

namespace Transparent

/-- The transport takes everything up to one action and nothing after it. -/
def takesUntil (last k : ℕ) : StreamEnv :=
  if k ≤ last then framerEnv
  else { framerEnv with sendMessage := fun _ => some (.io .closedPipe) }

theorem takesUntil_pad (last k n : ℕ) : (takesUntil last k).pad n ≠ none := by
  unfold takesUntil
  split <;> exact Option.some_ne_none _

theorem takesUntil_takes {last k : ℕ} (hk : k ≤ last) :
    (takesUntil last k).TakesFrames := by
  rw [takesUntil, if_pos hk]
  exact .of_framer rfl

theorem takesUntil_refuses {last k : ℕ} (hk : last < k) (w : Bytes) :
    (takesUntil last k).sendMessage w ≠ none := by
  rw [takesUntil, if_neg (not_le.mpr hk)]
  exact Option.some_ne_none _

/-- One byte more than a chunk. -/
def twoChunks : Bytes := List.replicate 65281 0

/-- Thirteen pieces of the least length and the rest of the chunk, then the one
byte of the second. -/
theorem framesOf_twoChunks :
    framesOf twoChunks (takesUntil 42) =
      [(List.range 13).map (fun j => ⟨4096, takesUntil 42 (3 * j + 2)⟩) ++
        [⟨12032, takesUntil 42 41⟩], [⟨1, takesUntil 42 43⟩]] := by
  rw [framesOf, twoChunks, List.length_replicate]
  rfl

theorem failsAt_twoChunks :
    FailsAt 14 (framesOf twoChunks (takesUntil 42)).flatten := by
  rw [framesOf_twoChunks]
  refine ⟨?_, ?_, ?_⟩
  · intro cut hcut
    simp only [List.flatten_cons, List.flatten_nil, List.append_nil,
      List.mem_append, List.mem_map, List.mem_singleton] at hcut
    rcases hcut with (⟨j, _, rfl⟩ | rfl) | rfl
    · exact takesUntil_pad 42 _
    · exact takesUntil_pad 42 41
    · exact takesUntil_pad 42 43
  · intro cut hcut
    rw [List.flatten_cons, List.take_append_of_le_length (by simp)] at hcut
    have hmem := List.mem_of_mem_take hcut
    simp only [List.mem_append, List.mem_map, List.mem_range,
      List.mem_singleton] at hmem
    rcases hmem with ⟨j, hj, rfl⟩ | rfl
    · exact takesUntil_takes (by omega)
    · exact @takesUntil_takes 42 41 (by decide)
  · rintro cut hcut w
    cases hcut
    exact @takesUntil_refuses 42 43 (by decide) w

/-- One byte more than the largest piece. -/
def twoPieces : Bytes := List.replicate 12289 0

theorem framesOf_twoPieces :
    framesOf twoPieces (takesUntil 2) =
      [[⟨4096, takesUntil 2 2⟩, ⟨8193, takesUntil 2 5⟩]] := by
  rw [framesOf, twoPieces, List.length_replicate]
  rfl

theorem failsAt_twoPieces :
    FailsAt 1 (framesOf twoPieces (takesUntil 2)).flatten := by
  rw [framesOf_twoPieces]
  refine ⟨?_, ?_, ?_⟩
  · intro cut hcut
    simp only [List.flatten_cons, List.flatten_nil, List.append_nil,
      List.mem_cons, List.not_mem_nil, or_false] at hcut
    rcases hcut with rfl | rfl
    · exact takesUntil_pad 2 2
    · exact takesUntil_pad 2 5
  · intro cut hcut
    obtain rfl : cut = ⟨4096, takesUntil 2 2⟩ := by simpa using hcut
    exact @takesUntil_takes 2 2 le_rfl
  · rintro cut hcut w
    cases hcut
    exact @takesUntil_refuses 2 5 (by decide) w

end Transparent

open Transparent in
/-- The one byte of the second chunk is refused: `Write` reports the whole first
chunk, which is what the transport has taken. -/
theorem write_counts_taken_twoChunks :
    CountsTaken suite twoChunks (takesUntil 42) (newClientSecureStream keys) ∧
      ((streamWrite suite twoChunks).exec (takesUntil 42)
        (newClientSecureStream keys)).1.1 = 65280 := by
  obtain ⟨htaken, hcounts⟩ := (write_counts_taken_iff suite twoChunks
    (takesUntil 42) (newClientSecureStream keys)).2.2 14 rfl failsAt_twoChunks
  have hholds := hcounts.mpr (Or.inr ⟨1, by rw [framesOf_twoChunks]; rfl⟩)
  have hlen : cutsLen ((framesOf twoChunks (takesUntil 42)).flatten.take 14) =
      65280 := by
    rw [framesOf_twoChunks]
    rfl
  refine ⟨hholds, ?_⟩
  rw [hholds.1, htaken, hlen, List.length_take, twoChunks, List.length_replicate]
  rfl

open Transparent in
/-- The first piece of a two-piece write is taken and the second is refused: the
transport has 4096 bytes of the argument, and `Write` reports none. -/
theorem write_counts_missing_piece :
    ((streamWrite suite twoPieces).exec (takesUntil 2)
        (newClientSecureStream keys)).1.2 ≠ .ok () ∧
      ((streamWrite suite twoPieces).exec (takesUntil 2)
        (newClientSecureStream keys)).1.1 = 0 ∧
      (bytesTaken (streamWrite suite twoPieces) (takesUntil 2)
        (newClientSecureStream keys)).length = 4096 ∧
      ¬CountsTaken suite twoPieces (takesUntil 2) (newClientSecureStream keys) := by
  obtain ⟨hok, htaken⟩ := @streamWrite_followsCuts suite twoPieces (takesUntil 2)
    (newClientSecureStream keys) 1 rfl failsAt_twoPieces
  have hfailed : ((streamWrite suite twoPieces).exec (takesUntil 2)
      (newClientSecureStream keys)).1.2 ≠ .ok () := by
    rw [ne_eq, hok, framesOf_twoPieces]
    decide
  have hlen : (bytesTaken (streamWrite suite twoPieces) (takesUntil 2)
      (newClientSecureStream keys)).length = 4096 := by
    rw [htaken, framesOf_twoPieces, List.length_take, twoPieces,
      List.length_replicate]
    rfl
  have hcount := ((streamWrite_reports suite twoPieces (takesUntil 2)
    (newClientSecureStream keys)).failed hfailed).2
  rw [hlen] at hcount
  refine ⟨hfailed, hcount, hlen, ?_⟩
  rintro ⟨hsame, -⟩
  rw [hlen, hcount] at hsame
  cases hsame

end SingEwp
