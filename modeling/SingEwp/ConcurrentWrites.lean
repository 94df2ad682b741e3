import SingEwp.SoloRuns
import SingEwp.TunnelDelivery

/-!
# Concurrent calls of `Write`

Any number of goroutines, each with one call of `streamConn.Write`.  The lock of
`sendFrame` is held for one frame at a time, and a string of more than 12288
bytes is cut into several.  So the frames of another `Write` may come between
them: calls of given sizes are atomic for all strings and all interleavings
exactly if no string is cut while another is not empty.
-/

namespace SingEwp

variable {P : Primitives}

def streamWriters (P : Primitives) (keys : SessionKeys) (side : Side)
    (ps : List Bytes) :
    Pool StreamLabel StreamEnv SecureStream (ℕ × Outcome EwpError Unit) where
  shared := newSecureStream keys side
  threads := ps.map (streamWrite P)

@[simp] theorem streamWriters_threads_length
    (keys : SessionKeys) (side : Side) (ps : List Bytes) :
    (streamWriters P keys side ps).threads.length = ps.length := by
  simp [streamWriters]

@[simp] theorem streamWriters_handed
    (keys : SessionKeys) (side : Side) (ps : List Bytes) :
    (streamWriters P keys side ps).shared.handed = [] :=
  newSecureStream_handed keys side

/-- The transport is a length framer: it takes no message that the framer
refuses.  Its writes may fail. -/
def FramerGuard (label : StreamLabel) (env : StreamEnv) (_ : SecureStream) :
    Prop :=
  label = .sendLocked → ∀ msg, env.sendMessage msg = none → framerAccept msg = none

/-- All calls have returned without error. -/
def AllWrote
    (pool : Pool StreamLabel StreamEnv SecureStream (ℕ × Outcome EwpError Unit)) :
    Prop :=
  ∀ thread < pool.threads.length, ∃ result,
    pool.threads[thread]? = some (.ret result) ∧ WroteOk result

/-- The peer of `side` has received everything, finds nothing more to read and
has read `out`. -/
def PeerReads (P : Primitives) (keys : SessionKeys) (side : Side)
    (log : List SentFrame) (out : Bytes) : Prop :=
  ∃ ops : List ReaderOp, (∀ n, ReaderOp.read n ∈ ops → 0 < n) ∧
    arrivals ops = wireBytes log ∧
    (∃ n, 0 < n ∧
      (streamRead P n (readerRun P ops (newReader keys side)).2).1 = none) ∧
    returned (readerRun P ops (newReader keys side)).1 = out

/-- Whenever all calls succeed, the peer reads their strings one after the
other. -/
def WritesAtomic (P : Primitives) (keys : SessionKeys) (side : Side)
    (ps : List Bytes) : Prop :=
  ∀ schedule, (streamWriters P keys side ps).Admits FramerGuard schedule →
    AllWrote ((streamWriters P keys side ps).run schedule) →
    ∃ order : List Bytes, order.Perm ps ∧ ∀ out,
      PeerReads P keys side
        ((streamWriters P keys side ps).run schedule).shared.handed out ↔
          out = order.flatten

/-- No string is cut while another is not empty. -/
def NeverSplit (sizes : List ℕ) : Prop :=
  ∀ (i j n m : ℕ), i ≠ j → sizes[i]? = some n → sizes[j]? = some m →
    n ≤ reshapeMax ∨ m = 0

/-! ## What the peer reads -/

theorem Reading.exists_wait
    {f : FrameAEAD} {log : List SentFrame} {k : ℕ} {out : Bytes}
    {c : StreamConn} (hlog : TunnelLog P f log)
    (hreading : Reading f log k [] out c) :
    ∃ ops : List ReaderOp, (∀ op ∈ ops, op = .read 1) ∧
      (streamRead P 1 (readerRun P ops c).2).1 = none := by
  -- every read that does not wait leaves fewer bytes to be returned
  induction hleft : (tunnelData log).length - out.length using Nat.strong_induction_on
    generalizing k out c with
  | _ left ih =>
      obtain ⟨k', c', ⟨hread, _, _⟩ | ⟨b, hread, hne, _, hnext⟩⟩ :=
        hreading.read hlog one_pos
      · exact ⟨[], by simp, by simp [readerRun, hread]⟩
      · have hlen := hnext.out_isPrefix.length_le
        have hpos := List.length_pos_iff.mpr hne
        rw [List.length_append] at hlen
        obtain ⟨ops, hops, hwait⟩ := ih _ (by rw [List.length_append]; omega) hnext rfl
        refine ⟨.read 1 :: ops, List.forall_mem_cons.mpr ⟨rfl, hops⟩, ?_⟩
        simpa [readerRun, hread] using hwait

theorem returned_eq_of_wait
    {keys : SessionKeys} {side : Side} {log : List SentFrame}
    (hlog : TunnelLog P (newSecureStream keys side).send log)
    {ops : List ReaderOp} (hsizes : ∀ n, ReaderOp.read n ∈ ops → 0 < n)
    (harrived : arrivals ops = wireBytes log) {n : ℕ} (hn : 0 < n)
    (hwait : (streamRead P n (readerRun P ops (newReader keys side)).2).1 =
      none) :
    returned (readerRun P ops (newReader keys side)).1 = tunnelData log := by
  have hstart : arrivals ops ++ [] = wireBytes log := by simp [harrived]
  obtain ⟨_, k, hreading⟩ :=
    readerRun_reading hlog hsizes (newReader_reading hstart)
  rw [List.nil_append] at hreading
  exact hreading.out_eq_of_wait hlog hn hwait

theorem peerReads_iff
    {keys : SessionKeys} {side : Side} {log : List SentFrame}
    (hlog : TunnelLog P (newSecureStream keys side).send log) (out : Bytes) :
    PeerReads P keys side log out ↔ out = tunnelData log := by
  constructor
  · rintro ⟨ops, hsizes, harrived, ⟨n, hn, hwait⟩, rfl⟩
    exact returned_eq_of_wait hlog hsizes harrived hn hwait
  · rintro rfl
    have hstart : arrivals [.arrive (wireBytes log)] ++ [] = wireBytes log := by
      simp [arrivals]
    have hnew : Reading (newSecureStream keys side).send log 0 _ []
        (newReader keys side) := newReader_reading hstart
    obtain ⟨_, k, hreading⟩ := readerRun_reading hlog (by simp) hnew
    obtain ⟨ops, hops, hwait⟩ := hreading.exists_wait hlog
    have hsizes : ∀ n, ReaderOp.read n ∈ ReaderOp.arrive (wireBytes log) :: ops →
        0 < n := by
      intro n hmem
      rcases List.mem_cons.mp hmem with hfirst | hlater
      · cases hfirst
      · cases hops _ hlater
        exact one_pos
    have harrived : arrivals (.arrive (wireBytes log) :: ops) = wireBytes log := by
      rw [arrivals, arrivals_reads fun op hop => ⟨1, hops op hop⟩, List.append_nil]
    exact ⟨_, hsizes, harrived, ⟨1, one_pos, hwait⟩,
      returned_eq_of_wait hlog hsizes harrived one_pos hwait⟩

/-! ## What a call puts into the log -/

def Carried (all : List SentFrame) : Prop :=
  ∀ e ∈ all, e.type = frameTCPData ∧ e.wire.length ≤ maxFrameSize

theorem emit_handed_data
    {s : SecureStream} {cap : ℕ} {fr : Frame} {piece : Bytes}
    (htype : fr.type = frameTCPData) (hmeta : fr.metaBytes = [])
    (hpayload : fr.payload = piece) :
    (s.emit P cap fr).handed =
      s.handed ++ [⟨frameTCPData, [], piece, fr.wire P s.send⟩] := by
  rw [← htype, ← hmeta, ← hpayload]
  rfl

/-- Over a transport that may fail. -/
theorem sendFrame_carries
    {f : FrameAEAD} {target : Bytes} {once : Prop} (so : List SentFrame)
    (piece : Bytes) (hne : piece ≠ []) (hsmall : piece.length ≤ reshapeMax)
    (hahead : Ahead target once so piece) (hso : Pieces target once so)
    (hkept : Carried so) :
    Emits (Ledger P f) FramerGuard target once Carried True so piece SentOk
      (.ok ()) (sendFrame P frameTCPData [] piece (-1)) := by
  apply sendFrame_meets hso
  · intro s _ _
    exact ⟨fun hok => absurd hok (by simp [SentOk]), fun _ => trivial⟩
  · intro env s hledger hguard
    have hnext := sendFrameLocked_ledger hledger frameTCPData [] piece (-1) env
    have hstep := sendFrameLocked_step P frameTCPData [] piece (-1) env s
    generalize sendFrameLocked P frameTCPData [] piece (-1) env s = r
      at hnext hstep ⊢
    cases hstep with
    | kept outcome cap failed =>
        refine ⟨hnext, [], by simp, by simpa using hso, fun hok => ?_,
          fun _ => trivial⟩
        exact absurd hok (SendStep.ne_ok_of_failed failed)
    | taken cap fr htype hmeta hpayload hsend =>
        refine ⟨hnext, _, emit_handed_data htype hmeta hpayload,
          hso.append hahead hne hsmall, fun _ => ⟨rfl, ?_, ?_⟩, fun _ => trivial⟩
        · simp [SentFrame.data]
        · intro e he
          rcases List.mem_append.mp he with hold | hnew
          · exact hkept e hold
          · rw [List.mem_singleton.mp hnew]
            exact ⟨rfl, (framerAccept_none_iff _).mp (hguard rfl _ hsend)⟩
    | refused cap fr htype hmeta hpayload e hsend =>
        refine ⟨hnext, _, (SecureStream.close_handed _).trans
          (emit_handed_data htype hmeta hpayload), hso.append hahead hne hsmall,
          fun hok => ?_, fun _ => trivial⟩
        exact absurd hok (by simp [SentOk])

theorem streamWrite_carries (f : FrameAEAD) (p : Bytes) :
    Emits (Ledger P f) FramerGuard p (p.length ≤ reshapeMax) Carried True [] p
      WroteOk (p.length, .ok ()) (streamWrite P p) :=
  streamWrite_emits sendFrame_carries (Ahead.self id) (Pieces.nil p _)
    (by simp [Carried])

theorem writeChunks_acts (fuel : ℕ) (p : Bytes) (written : ℕ) :
    Proc.Acts (StreamAction P) (writeChunks P fuel p written) := by
  induction fuel generalizing p written with
  | zero => trivial
  | succ fuel ih =>
      unfold writeChunks
      split
      · trivial
      · apply Proc.Acts.bind (SendCall.acts P (.tcpData (p.take maxPayload)))
        intro outcome
        cases outcome with
        | ok value => exact ih _ _
        | error e => trivial
        | panic => trivial

theorem streamWrite_acts (p : Bytes) :
    Proc.Acts (StreamAction P) (streamWrite P p) := by
  unfold streamWrite
  split
  · trivial
  · exact writeChunks_acts _ _ _

theorem StreamAction.handed_length_le
    {label : StreamLabel} {update : StreamEnv → SecureStream → SecureStream}
    (haction : StreamAction P label update) (env : StreamEnv) (s : SecureStream) :
    (update env s).handed.length ≤ s.handed.length + 1 := by
  cases haction with
  | closedTest => exact Nat.le_succ _
  | chunkDraw => exact Nat.le_succ _
  | sendLocked t metaBytes payload padLen =>
      obtain ⟨new, hnew, hle⟩ :=
        sendFrameLocked_handed P t metaBytes payload padLen env s
      dsimp only
      rw [hnew, List.length_append]
      omega
  | recv =>
      dsimp only
      rw [(recv_send_handed P env s).2]
      exact Nat.le_succ _
  | close =>
      dsimp only
      rw [SecureStream.close_handed]
      exact Nat.le_succ _

/-! ## All calls together -/

def written (ps : List Bytes) (thread : ℕ) : Bytes := ps[thread]?.getD []

/-- What a call has put into the log at any moment. -/
def Share (ps : List Bytes) (thread : ℕ) : List SentFrame → Prop :=
  Pieces (written ps thread) ((written ps thread).length ≤ reshapeMax)

def ShareEnd (E : List SentFrame → Prop) (F : Prop) (ps : List Bytes)
    (thread : ℕ) (all : List SentFrame) (result : ℕ × Outcome EwpError Unit) :
    Prop :=
  (WroteOk result → result = ((written ps thread).length, .ok ()) ∧
    tunnelData all = written ps thread ∧ E all) ∧ (¬WroteOk result → F)

theorem written_of_getElem?
    {ps : List Bytes} {thread : ℕ} {p : Bytes} (hp : ps[thread]? = some p) :
    written ps thread = p := by
  rw [written, hp, Option.getD_some]

theorem map_written (ps : List Bytes) :
    (List.range ps.length).map (written ps) = ps := by
  apply List.ext_getElem (by simp)
  intro i _ hi
  simp [written, hi]

theorem Share.of_nil
    {ps : List Bytes} {thread : ℕ} {all : List SentFrame}
    (hshare : Share ps thread all) (hnil : written ps thread = []) : all = [] := by
  have hwithin := hshare.within
  rw [hnil, Within, List.prefix_nil, tunnelData, List.flatMap_eq_nil_iff]
    at hwithin
  apply List.eq_nil_iff_forall_not_mem.mpr
  exact fun e he => (hshare.cut e he).1 (hwithin e he)

/-- A string that is not cut takes one frame, or none if it is empty. -/
theorem Share.data_of_short
    {ps : List Bytes} {thread : ℕ} {all : List SentFrame}
    (hshare : Share ps thread all) (hdone : tunnelData all = written ps thread)
    (hshort : (written ps thread).length ≤ reshapeMax) :
    all.map SentFrame.data = [written ps thread].filter (· ≠ []) := by
  by_cases hnil : written ps thread = []
  · rw [hshare.of_nil hnil]
    simp [hnil]
  · rcases hshare.whole hshort with rfl | ⟨hone, _⟩
    · exact absurd hdone.symm hnil
    · obtain ⟨e, rfl⟩ := List.length_eq_one_iff.mp hone
      rw [tunnelData_singleton] at hdone
      simp [hdone, hnil]

theorem streamWriters_contracts
    {I : SecureStream → Prop} {ok : StreamLabel → StreamEnv → SecureStream → Prop}
    {E : List SentFrame → Prop} {F : Prop} {keys : SessionKeys} {side : Side}
    (hinit : I (newSecureStream keys side))
    (hwrite : ∀ p : Bytes, Emits I ok p (p.length ≤ reshapeMax) E F [] p WroteOk
      (p.length, .ok ()) (streamWrite P p)) (ps : List Bytes) :
    Pool.Contracts I ok SecureStream.handed (Share ps) (ShareEnd E F ps)
      (fun _ => []) (streamWriters P keys side ps) := by
  refine ⟨hinit, fun thread p hp => ?_⟩
  rw [streamWriters, List.getElem?_map, Option.map_eq_some_iff] at hp
  obtain ⟨string, hstring, rfl⟩ := hp
  unfold Share ShareEnd
  rw [written_of_getElem? hstring]
  exact hwrite string

section Run

variable {keys : SessionKeys} {side : Side} {ps : List Bytes}
variable {schedule : List (ℕ × StreamEnv)}

theorem carried_contracts (P : Primitives) (keys : SessionKeys) (side : Side)
    (ps : List Bytes) :
    Pool.Contracts (Ledger P (newSecureStream keys side).send) FramerGuard
      SecureStream.handed (Share ps) (ShareEnd Carried True ps) (fun _ => [])
      (streamWriters P keys side ps) :=
  streamWriters_contracts (newSecureStream_invariant P keys side).1
    (streamWrite_carries _) ps

/-- What the contracts say once all calls have succeeded. -/
theorem streamWriters_wrote
    (hadmits : (streamWriters P keys side ps).Admits FramerGuard schedule)
    (hwrote : AllWrote ((streamWriters P keys side ps).run schedule))
    {thread : ℕ} (hthread : thread < ps.length) {share : List SentFrame}
    (hshare : (streamWriters P keys side ps).contribution SecureStream.handed thread
      schedule = share) :
    Share ps thread share ∧ tunnelData share = written ps thread ∧
      Carried share := by
  have hend := (carried_contracts P keys side ps).run hadmits
  obtain ⟨result, hdone, hgood⟩ :=
    hwrote thread (by simpa using hthread)
  have hmeets := hend.threads thread _ hdone
  rw [List.nil_append, hshare] at hmeets
  exact ⟨hmeets.1, (hmeets.2.1 hgood).2⟩

theorem streamWriters_log
    (hadmits : (streamWriters P keys side ps).Admits FramerGuard schedule)
    (hwrote : AllWrote ((streamWriters P keys side ps).run schedule)) :
    TunnelLog P (newSecureStream keys side).send
        ((streamWriters P keys side ps).run schedule).shared.handed ∧
      (((streamWriters P keys side ps).run schedule).shared.handed).Perm
        ((List.range ps.length).flatMap (fun thread =>
          (streamWriters P keys side ps).contribution SecureStream.handed thread
            schedule)) := by
  have hcontracts := carried_contracts P keys side ps
  have hledger := (hcontracts.run hadmits).inv
  have hperm := Pool.run_log_perm _ hcontracts.threads hadmits hcontracts.inv
  rw [streamWriters_handed, List.nil_append, streamWriters_threads_length] at hperm
  have hcarried : Carried
      ((streamWriters P keys side ps).run schedule).shared.handed := by
    intro e he
    obtain ⟨thread, hthread, hmem⟩ := List.mem_flatMap.mp (hperm.mem_iff.mp he)
    exact (streamWriters_wrote hadmits hwrote (List.mem_range.mp hthread) rfl).2.2 e
      hmem
  refine ⟨⟨hledger.frames, fun e he => ?_, fun e he => (hcarried e he).2⟩, hperm⟩
  rw [(hcarried e he).1]
  simp [tunnelTypes]

/-- Strings that are not cut arrive in the order of their frames. -/
theorem short_writes_in_order
    (hshort : ∀ thread < ps.length, (written ps thread).length ≤ reshapeMax)
    (hadmits : (streamWriters P keys side ps).Admits FramerGuard schedule)
    (hwrote : AllWrote ((streamWriters P keys side ps).run schedule)) :
    ∃ order : List Bytes, order.Perm ps ∧
      tunnelData ((streamWriters P keys side ps).run schedule).shared.handed =
        order.flatten := by
  have hperm := (streamWriters_log hadmits hwrote).2
  generalize ((streamWriters P keys side ps).run schedule).shared.handed = log
    at hperm ⊢
  have hdata : (log.map SentFrame.data).Perm (ps.filter (· ≠ [])) := by
    have hmap := hperm.map SentFrame.data
    have hsingles : ps.filter (· ≠ []) = (List.range ps.length).flatMap
        (fun thread => [written ps thread].filter (· ≠ [])) := by
      nth_rewrite 1 [← map_written ps]
      induction List.range ps.length with
      | nil => rfl
      | cons thread rest ih =>
          rw [List.map_cons, ← List.singleton_append, List.filter_append, ih,
            List.flatMap_cons]
    rw [List.map_flatMap] at hmap
    rw [hsingles]
    convert hmap using 1
    apply List.flatMap_congr
    intro thread hthread
    have hlt := List.mem_range.mp hthread
    obtain ⟨hshare, hdone, _⟩ := streamWriters_wrote hadmits hwrote hlt rfl
    exact (hshare.data_of_short hdone (hshort thread hlt)).symm
  refine ⟨log.map SentFrame.data ++ ps.filter (fun p => !decide (p ≠ [])), ?_, ?_⟩
  · exact (hdata.append_right _).trans (List.filter_append_perm _ ps)
  · have hnone : (ps.filter (fun p => !decide (p ≠ []))).flatten = [] := by
      simp [List.flatten_eq_nil_iff]
    rw [List.flatten_append, hnone, List.append_nil, tunnelData,
      List.flatMap_def]

/-- A string that is cut arrives whole if it is the only one. -/
theorem single_write_in_order
    {owner : ℕ} (howner : owner < ps.length)
    (hrest : ∀ thread, thread ≠ owner → written ps thread = [])
    (hadmits : (streamWriters P keys side ps).Admits FramerGuard schedule)
    (hwrote : AllWrote ((streamWriters P keys side ps).run schedule)) :
    tunnelData ((streamWriters P keys side ps).run schedule).shared.handed =
      ps.flatten := by
  have hcontracts := carried_contracts P keys side ps
  have hothers : ∀ thread entries, thread ≠ owner → Share ps thread entries →
      entries.filter (fun _ => true) = [] := by
    intro thread entries hne hshare
    rw [hshare.of_nil (hrest thread hne), List.filter_nil]
  have hfilter := Pool.run_log_filter _ hcontracts.threads hothers hadmits
    hcontracts.inv
  simp only [streamWriters_handed, List.filter_true, List.nil_append] at hfilter
  obtain ⟨_, hdone, _⟩ := streamWriters_wrote hadmits hwrote howner rfl
  have hsingle : written ps =
      fun thread => if owner = thread then written ps owner else [] := by
    funext thread
    by_cases heq : owner = thread
    · rw [if_pos heq, heq]
    · rw [if_neg heq, hrest thread (Ne.symm heq)]
  calc tunnelData ((streamWriters P keys side ps).run schedule).shared.handed
      = written ps owner := by rw [hfilter, hdone]
    _ = (List.range ps.length).flatMap
          (fun thread => if owner = thread then written ps owner else []) := by
        rw [flatMap_range_single, if_pos howner]
    _ = (List.range ps.length).flatMap (written ps) := by rw [← hsingle]
    _ = ps.flatten := by rw [List.flatMap_def, map_written]

end Run

/-- Writes that are not split are atomic. -/
theorem writesAtomic_of_neverSplit
    {keys : SessionKeys} {side : Side} {ps : List Bytes}
    (hnever : NeverSplit (ps.map List.length)) : WritesAtomic P keys side ps := by
  intro schedule hadmits hwrote
  have hlog := (streamWriters_log hadmits hwrote).1
  have hsize : ∀ thread < ps.length,
      (ps.map List.length)[thread]? = some (written ps thread).length := by
    intro thread hthread
    simp [written, hthread]
  suffices horder : ∃ order : List Bytes, order.Perm ps ∧
      tunnelData ((streamWriters P keys side ps).run schedule).shared.handed =
        order.flatten by
    obtain ⟨order, hperm, hdata⟩ := horder
    refine ⟨order, hperm, fun out => ?_⟩
    rw [peerReads_iff hlog, hdata]
  by_cases hshort : ∀ thread < ps.length, (written ps thread).length ≤ reshapeMax
  · exact short_writes_in_order hshort hadmits hwrote
  · push Not at hshort
    obtain ⟨owner, howner, hlong⟩ := hshort
    refine ⟨ps, List.Perm.refl ps,
      single_write_in_order howner (fun thread hne => ?_) hadmits hwrote⟩
    by_cases hthread : thread < ps.length
    · rcases hnever owner thread _ _ (Ne.symm hne) (hsize owner howner)
        (hsize thread hthread) with hle | hzero
      · omega
      · exact List.eq_nil_of_length_eq_zero hzero
    · simp [written, hthread]

/-! ## A write that is split -/

theorem open_contracts (P : Primitives) (keys : SessionKeys) (side : Side)
    (ps : List Bytes) :
    Pool.Contracts (TunnelOpen P (newSecureStream keys side).send) TunnelGuard
      SecureStream.handed (Share ps) (ShareEnd (fun _ => True) False ps)
      (fun _ => []) (streamWriters P keys side ps) :=
  streamWriters_contracts (tunnelOpen_newSecureStream P keys side)
    (fun p => streamWrite_works (Ahead.self id) (Pieces.nil p _)) ps

/-- The first piece of one string goes out, then all of another. -/
theorem exists_split
    (P : Primitives) (keys : SessionKeys) (side : Side) {ps : List Bytes}
    {i j : ℕ} (hij : i ≠ j) (hi : i < ps.length) (hj : j < ps.length)
    (hne : written ps i ≠ []) :
    ∃ (schedule : List (ℕ × StreamEnv)) (piece tail : Bytes),
      (streamWriters P keys side ps).Admits FramerGuard schedule ∧
      AllWrote ((streamWriters P keys side ps).run schedule) ∧
      TunnelLog P (newSecureStream keys side).send
        ((streamWriters P keys side ps).run schedule).shared.handed ∧
      tunnelData ((streamWriters P keys side ps).run schedule).shared.handed =
        piece ++ written ps j ++ tail ∧
      piece ≠ [] ∧ piece.length ≤ reshapeMax ∧ piece <+: written ps i := by
  have hstart := open_contracts P keys side ps
  have hsend : (streamWriters P keys side ps).threads[i]? =
      some (streamWrite P (written ps i)) := by
    simp [streamWriters, written, hi]
  have hmore : ∀ result, ¬ShareEnd (fun _ => True) False ps i [] result := by
    rintro result ⟨hgood, hbad⟩
    exact hne (hgood (not_not.mp hbad)).2.1.symm
  obtain ⟨schedule, entry, share, tail, so, henv, hdone, hend, hlog, hfirst, result,
    hsecond⟩ := hstart.exists_overtaken Transparent.framerEnv_guard
      (fun _ _ haction => StreamAction.handed_length_le haction) hij
      (by simpa using hj) hsend (streamWrite_acts _) hmore
  have hshare := (hsecond.1 (not_not.mp hsecond.2)).2.1
  obtain ⟨hne', hsmall⟩ := hfirst.cut entry List.mem_cons_self
  have hwithin := hfirst.within
  rw [Within, tunnelData_singleton] at hwithin
  refine ⟨schedule, entry.data, tunnelData tail, ?_, ?_, ?_, ?_, hne', hsmall,
    hwithin⟩
  · exact Pool.admits_of_env (fun _ _ _ _ hsent => hsent) henv _
  · intro thread hthread
    rw [Pool.run_threads_length] at hthread
    obtain ⟨result', hdone'⟩ := hdone thread hthread
    exact ⟨result', hdone', not_not.mp (hend.threads thread _ hdone').2.2⟩
  · exact ⟨hend.inv.ledger.frames, hend.inv.types, hend.inv.sizes⟩
  · rw [hlog, streamWriters_handed, List.nil_append, tunnelData_append,
      tunnelData_append, tunnelData_singleton, hshare]

theorem replicate_isPrefix
    {order : List Bytes} {n : ℕ} {x : UInt8} {rest : Bytes}
    (hmarked : ∀ p ∈ order, p = List.replicate n x ∨ x ∉ p)
    (hflat : order.flatten = x :: rest) :
    List.replicate n x <+: order.flatten := by
  induction order with
  | nil => simp at hflat
  | cons p order ih =>
      cases p with
      | nil =>
          exact ih (fun q hq => hmarked q (List.mem_cons_of_mem _ hq)) hflat
      | cons y p =>
          rw [List.flatten_cons, List.cons_append, List.cons.injEq] at hflat
          rcases hmarked _ List.mem_cons_self with hwhole | hnot
          · rw [List.flatten_cons, hwhole]
            exact List.prefix_append _ _
          · exact absurd (by simp [hflat.1]) hnot

/-- A string that is cut, of a byte that occurs in no other. -/
theorem not_writesAtomic
    {keys : SessionKeys} {side : Side} {ps : List Bytes} {i j n : ℕ} {x y : UInt8}
    {rest : Bytes} (hij : i ≠ j) (hi : ps[i]? = some (List.replicate n x))
    (hn : reshapeMax < n) (hj : ps[j]? = some (y :: rest)) (hxy : x ≠ y)
    (hmarked : ∀ p ∈ ps, p = List.replicate n x ∨ x ∉ p) :
    ¬WritesAtomic P keys side ps := by
  intro hatomic
  have hne : written ps i ≠ [] := by
    rw [written_of_getElem? hi]
    simp
    omega
  obtain ⟨schedule, piece, tail, hadmits, hwrote, hlog, hdata, hpiece, hsmall,
    hprefix⟩ := exists_split P keys side hij
      (List.getElem?_eq_some_iff.mp hi).1 (List.getElem?_eq_some_iff.mp hj).1 hne
  obtain ⟨order, hperm, hreads⟩ := hatomic schedule hadmits hwrote
  have horder : order.flatten = piece ++ written ps j ++ tail := by
    rw [← hdata]
    exact ((hreads _).mp ((peerReads_iff hlog _).mpr rfl)).symm
  rw [written_of_getElem? hi] at hprefix
  rw [written_of_getElem? hj] at horder
  obtain ⟨_, hrun⟩ := List.prefix_replicate_iff.mp hprefix
  have hpos := List.length_pos_iff.mpr hpiece
  have hfirst : ∃ more, order.flatten = x :: more := by
    obtain ⟨k, hk⟩ : ∃ k, piece.length = k + 1 := ⟨piece.length - 1, by omega⟩
    rw [hk, List.replicate_succ] at hrun
    exact ⟨_, by rw [horder, hrun, List.cons_append, List.cons_append]⟩
  obtain ⟨more, hmore⟩ := hfirst
  -- the byte after the piece belongs to both strings
  obtain ⟨after, hafter⟩ := replicate_isPrefix
    (fun p hp => hmarked p (hperm.mem_iff.mp hp)) hmore
  have hx : order.flatten[piece.length]? = some x := by
    rw [← hafter, List.getElem?_append_left (by rw [List.length_replicate]; omega),
      List.getElem?_replicate, if_pos (by omega)]
  have hy : order.flatten[piece.length]? = some y := by
    rw [horder, List.append_assoc, List.getElem?_append_right le_rfl, Nat.sub_self]
    rfl
  exact hxy (Option.some.inj (hx.symm.trans hy))

/-- Strings of the given sizes, of which only one has zeros. -/
def markedStrings (sizes : List ℕ) (i : ℕ) : List Bytes :=
  sizes.mapIdx (fun k size => List.replicate size (if k = i then 0 else 1))

theorem markedStrings_length (sizes : List ℕ) (i : ℕ) :
    (markedStrings sizes i).map List.length = sizes := by
  apply List.ext_getElem (by simp [markedStrings])
  intro k _ _
  simp [markedStrings]

theorem markedStrings_marked
    {sizes : List ℕ} {i n : ℕ} (hi : sizes[i]? = some n) :
    ∀ p ∈ markedStrings sizes i, p = List.replicate n 0 ∨ 0 ∉ p := by
  intro p hp
  obtain ⟨k, hk, rfl⟩ := List.mem_mapIdx.mp hp
  by_cases heq : k = i
  · subst heq
    rw [List.getElem?_eq_getElem hk, Option.some.injEq] at hi
    simp [hi]
  · simp [heq, List.mem_replicate]

/-- Calls with strings of these sizes are atomic, whatever the strings, exactly
if no string is cut while another is not empty. -/
theorem concurrent_writes_atomic_iff
    (P : Primitives) (keys : SessionKeys) (side : Side) (sizes : List ℕ) :
    (∀ ps : List Bytes, ps.map List.length = sizes →
      WritesAtomic P keys side ps) ↔ NeverSplit sizes := by
  constructor
  · intro hatomic i j n m hij hi hj
    by_contra! hsplit
    obtain ⟨hn, hm⟩ := hsplit
    obtain ⟨m, rfl⟩ : ∃ m', m = m' + 1 := ⟨m - 1, by omega⟩
    have hfirst : (markedStrings sizes i)[i]? = some (List.replicate n 0) := by
      simp [markedStrings, hi]
    have hsecond : (markedStrings sizes i)[j]? =
        some (1 :: List.replicate m 1) := by
      simp [markedStrings, hj, Ne.symm hij, List.replicate_succ]
    exact not_writesAtomic hij hfirst hn hsecond (by decide)
      (markedStrings_marked hi)
      (hatomic (markedStrings sizes i) (markedStrings_length sizes i))
  · rintro hnever ps rfl
    exact writesAtomic_of_neverSplit hnever

/-- One byte too many: the other string may come between the two pieces. -/
theorem long_write_split :
    ¬WritesAtomic Transparent.suite Transparent.keys .client
      [List.replicate 12289 0, [1]] := by
  have hfirst : ([List.replicate 12289 0, [1]] : List Bytes)[0]? =
      some (List.replicate 12289 0) := rfl
  apply not_writesAtomic zero_ne_one hfirst (by decide) rfl (by decide)
  intro p hp
  simp only [List.mem_cons, List.not_mem_nil, or_false] at hp
  rcases hp with rfl | rfl
  · exact Or.inl rfl
  · exact Or.inr (by decide)

end SingEwp
