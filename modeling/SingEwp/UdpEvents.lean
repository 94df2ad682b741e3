import SingEwp.LengthFramer
import SingEwp.PacketDelivery
import SingEwp.StreamTermination

/-!
# UDP frames as events

The five methods that speak about UDP sub-sessions, and the `Event` that the
other side's `Recv` makes of the frame.  Whether an address travels is told by
the length of the meta alone; three frame types have it parsed that way, and the
two others carry nothing but the global ID.
-/

namespace SingEwp

/-! ## Meta -/

/-- The address a frame carries for `target`, if any. -/
def carriedAddress (target : Address) : Option Address :=
  if target.isDomain || target.addr.isValid then some target.wireNorm else none

theorem parseUDPMeta_globalID (globalID : GlobalID) :
    parseUDPMeta globalID.val = .ok (globalID, none) := by
  have hid : globalID.val.length = 8 := globalID.property
  unfold parseUDPMeta
  rw [if_neg (by omega), if_pos hid, List.take_of_length_le hid.le,
    FixedBytes.copyFrom_val]

/-- The parser finds the global ID and the address, if there is one to find. -/
theorem parseUDPMeta_of_build
    {globalID : GlobalID} {target : Address} {metaBytes : Bytes}
    (hbuild : buildUDPMeta globalID target = .ok metaBytes) :
    parseUDPMeta metaBytes = .ok (globalID, carriedAddress target) := by
  unfold carriedAddress
  by_cases hgiven : (target.isDomain || target.addr.isValid) = true
  · rw [if_pos hgiven]
    apply parseUDPMeta_buildUDPMeta _ hbuild
    rw [← Address.append_ok_iff]
    unfold buildUDPMeta at hbuild
    rw [if_pos hgiven, Address.append_eq_map] at hbuild
    cases happ : target.append [] with
    | error e => simp [happ, Except.map] at hbuild
    | ok e => exact ⟨e, rfl⟩
  · unfold buildUDPMeta at hbuild
    rw [if_neg hgiven, Except.ok.injEq] at hbuild
    rw [if_neg hgiven, ← hbuild, parseUDPMeta_globalID]

theorem buildUDPMeta_fits (globalID : GlobalID) (target : Address) :
    buildUDPMeta globalID target ≠ .error .metaTooLarge := by
  intro herror
  have := ((buildUDPMeta_error_iff globalID target _).mp herror).1
  simp at this

theorem buildUDPMeta_fails_iff (globalID : GlobalID) (target : Address) :
    (∃ e, buildUDPMeta globalID target = .error e) ↔
      (target.isDomain || target.addr.isValid) = true ∧
        ∃ e, target.append globalID.val = .error e := by
  have hfits := buildUDPMeta_fits globalID target
  unfold buildUDPMeta at hfits ⊢
  by_cases hgiven : (target.isDomain || target.addr.isValid) = true
  · rw [if_pos hgiven] at hfits ⊢
    cases happ : target.append globalID.val with
    | error e => simp [hgiven]
    | ok out =>
        simp only [happ] at hfits
        have hshort : ¬ maxMetaLen < out.length := fun hlong =>
          hfits (if_pos hlong)
        simp [if_neg hshort]
  · rw [if_neg hgiven]
    simp [hgiven]

/-! ## Events -/

/-- The event that the peer should see of a call. -/
def SendCall.udpEvent : SendCall → Option Event
  | .udpNew globalID target initial =>
      some { type := frameUDPNew, globalID := globalID,
             address := carriedAddress target, payload := appendToNil initial }
  | .udpData globalID target payload =>
      some { type := frameUDPData, globalID := globalID,
             address := carriedAddress target, payload := appendToNil payload }
  | .udpEnd globalID =>
      some { type := frameUDPEnd, globalID := globalID, payload := none }
  | .probeReq globalID =>
      some { type := frameUDPProbeReq, globalID := globalID, payload := none }
  | .probeResp globalID observed =>
      some { type := frameUDPProbeResp, globalID := globalID,
             address := carriedAddress observed, payload := none }
  | _ => none

/-- The frame that went out between two states, and the event it stands for. -/
structure HandedEvent (P : Primitives) (s s' : SecureStream) (ev : Event) :
    Prop where
  frame : ∃ fr : Frame,
    s'.handed = s.handed ++
      [⟨fr.type, fr.metaBytes, fr.payload, fr.wire P s.send⟩] ∧
    ∀ counter, eventOf (fr.decoded counter) = .ok ev

theorem eventOf_addressed
    {fr : Frame} {globalID : GlobalID} {target : Address}
    (htype : fr.type ∈ [frameUDPNew, frameUDPData, frameUDPProbeResp])
    (hbuild : buildUDPMeta globalID target = .ok fr.metaBytes)
    (counter : UInt64) :
    eventOf (fr.decoded counter) =
      .ok { type := fr.type, globalID := globalID,
            address := carriedAddress target,
            payload := appendToNil fr.payload } := by
  unfold eventOf Frame.decoded
  simp only [if_pos htype, appendToNil_bytes, parseUDPMeta_of_build hbuild]

theorem eventOf_bare
    {fr : Frame} {globalID : GlobalID}
    (htype : fr.type ∈ [frameUDPEnd, frameUDPProbeReq])
    (hmeta : fr.metaBytes = globalID.val) (counter : UInt64) :
    eventOf (fr.decoded counter) =
      .ok { type := fr.type, globalID := globalID,
            payload := appendToNil fr.payload } := by
  have hid : globalID.val.length = 8 := globalID.property
  have hother : fr.type ∉ [frameUDPNew, frameUDPData, frameUDPProbeResp] := by
    simp only [List.mem_cons, List.not_mem_nil, or_false] at htype
    rcases htype with htype | htype
    · rw [htype]
      decide
    · rw [htype]
      decide
  unfold eventOf Frame.decoded
  simp only [if_neg hother, if_pos htype, appendToNil_bytes, hmeta]
  rw [if_neg (by omega), List.take_of_length_le hid.le, FixedBytes.copyFrom_val]

section Sending

variable {P : Primitives} {supply supply' : ℕ → StreamEnv} {s s' : SecureStream}

theorem sendAddressed_hands
    {t : FrameType} {globalID : GlobalID} {target : Address} {payload : Bytes}
    (htype : t ∈ [frameUDPNew, frameUDPData, frameUDPProbeResp])
    (hexec : (sendAddressed P t globalID target payload).exec supply s =
      (.ok (), s', supply')) :
    HandedEvent P s s'
      { type := t, globalID := globalID, address := carriedAddress target,
        payload := appendToNil payload } := by
  obtain ⟨metaBytes, env, hbuild, hlocked⟩ := sendAddressed_locked hexec
  obtain ⟨fr, rfl, rfl, rfl, hhanded, _⟩ := sendFrameLocked_ok hlocked
  exact ⟨fr, hhanded, eventOf_addressed htype hbuild⟩

theorem sendFrame_id_hands
    {t : FrameType} {globalID : GlobalID}
    (htype : t ∈ [frameUDPEnd, frameUDPProbeReq])
    (hexec : (sendFrame P t globalID.val [] (-1)).exec supply s =
      (.ok (), s', supply')) :
    HandedEvent P s s' { type := t, globalID := globalID, payload := none } := by
  obtain ⟨env, hlocked⟩ := sendFrame_exec_ok hexec
  obtain ⟨fr, rfl, hmeta, hpayload, hhanded, _⟩ := sendFrameLocked_ok hlocked
  refine ⟨fr, by rw [hmeta, hpayload, hhanded], fun counter => ?_⟩
  rw [eventOf_bare htype hmeta, hpayload]
  rfl

theorem SendCall.hands
    {call : SendCall} {ev : Event} (hcall : call.udpEvent = some ev)
    (hexec : (call.proc P).exec supply s = (.ok (), s', supply')) :
    HandedEvent P s s' ev := by
  cases call with
  | udpNew globalID target initial =>
      cases hcall
      exact sendAddressed_hands (by simp) hexec
  | udpData globalID target payload =>
      cases hcall
      exact sendAddressed_hands (by simp) hexec
  | udpEnd globalID =>
      cases hcall
      exact sendFrame_id_hands (by simp) hexec
  | probeReq globalID =>
      cases hcall
      exact sendFrame_id_hands (by simp) hexec
  | probeResp globalID observed =>
      cases hcall
      exact sendAddressed_hands (by simp) hexec
  | tcpData payload => cases hcall
  | ping cookie => cases hcall
  | pong cookie => cases hcall
  | coverPad padLen => cases hcall

end Sending

/-- A UDP call that succeeds hands over one frame, and a peer that is in step
receives the call's event from it.  The meta always fits, and it cannot be built
only where the address cannot be encoded. -/
theorem udp_events_survive (P : Primitives) :
    (∀ (call : SendCall) (ev : Event) (supply supply' : ℕ → StreamEnv)
        (s s' : SecureStream),
      call.udpEvent = some ev →
      (call.proc P).exec supply s = (.ok (), s', supply') →
      ∃ e : SentFrame, s'.handed = s.handed ++ [e] ∧
        ∀ (peer : SecureStream) (env : StreamEnv), peer.closed = false →
          peer.recv = s.send → env.readMessage = .ok e.wire →
          (recv P env peer).1 = .ok ev) ∧
    ∀ (globalID : GlobalID) (target : Address),
      buildUDPMeta globalID target ≠ .error .metaTooLarge ∧
      ((∃ e, buildUDPMeta globalID target = .error e) ↔
        (target.isDomain || target.addr.isValid) = true ∧
          ∃ e, target.append globalID.val = .error e) := by
  constructor
  · intro call ev supply supply' s s' hcall hexec
    obtain ⟨fr, hhanded, hevent⟩ := (SendCall.hands hcall hexec).frame
    refine ⟨_, hhanded, ?_⟩
    intro peer env hopen hcontext hread
    rw [← hcontext] at hread
    obtain ⟨peer', hrecv, _⟩ := recv_wire hopen hread (hevent _)
    rw [hrecv]
  · intro globalID target
    exact ⟨buildUDPMeta_fits globalID target,
      buildUDPMeta_fails_iff globalID target⟩

theorem udp_events_survive_probe :
    ∃ wire, (recv Transparent.suite (Transparent.streamEnv (.ok wire))
      (newServerSecureStream Transparent.keys)).1 =
        .ok { type := frameUDPProbeReq, globalID := FixedBytes.copyFrom 8 [7],
              payload := none } := by
  obtain ⟨hok, _⟩ := @sendFrameLocked_policy Transparent.suite frameUDPProbeReq
    (FixedBytes.copyFrom 8 [7]).val [] Transparent.framerEnv
    (newClientSecureStream Transparent.keys) (.of_framer rfl)
    (by simp [Transparent.framerEnv, Transparent.streamEnv]) rfl (by decide)
    (by decide)
  generalize hlocked : sendFrameLocked Transparent.suite frameUDPProbeReq
    (FixedBytes.copyFrom 8 [7]).val [] (-1) Transparent.framerEnv
    (newClientSecureStream Transparent.keys) = r at hok
  obtain ⟨outcome, s'⟩ := r
  subst hok
  have hexec : ((SendCall.probeReq (FixedBytes.copyFrom 8 [7])).proc
      Transparent.suite).exec (fun _ => Transparent.framerEnv)
      (newClientSecureStream Transparent.keys) =
        (.ok (), s', fun _ => Transparent.framerEnv) :=
    sendFrame_exec rfl hlocked
  obtain ⟨e, _, hreceived⟩ := (udp_events_survive Transparent.suite).1
    (.probeReq (FixedBytes.copyFrom 8 [7])) _ _ _ _ _ rfl hexec
  exact ⟨e.wire, hreceived (newServerSecureStream Transparent.keys)
    (Transparent.streamEnv (.ok e.wire)) rfl rfl rfl⟩

end SingEwp
