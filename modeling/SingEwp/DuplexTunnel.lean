import SingEwp.TunnelEnds

/-!
# A TCP tunnel in both directions

Every run of writes, reads, keepalives and closes on both sides of a tunnel over a
reliable transport.  In each direction the bytes come out in the order in which
they were written, each to one caller of `Read`.  A side that is not closed by its
own callers does not fail before it has returned everything: the peer's `Close`
cuts off nothing that was written before.
-/

namespace SingEwp

variable {P : Primitives}

/-! ## Contracts -/

section Contracts

variable {keys : SessionKeys} {quits : Side → Prop} {dir side : Side}
variable {ok : DuplexLabel → StreamEnv → LinkedPair → Prop}

theorem tunnelData_pieces
    {pieces : List SentFrame}
    (hpieces : ∀ e ∈ pieces, e.type = frameTCPData ∧ e.metaBytes = []) :
    tunnelData pieces = pieces.flatMap SentFrame.payload := by
  refine List.flatMap_congr ?_
  intro e he
  exact if_pos (hpieces e he).1

theorem sendTCPData_sessionMeets (so : List SentFrame) (payload : Bytes) :
    SessionMeets P keys quits ok dir
      (fun all outcome => dir = side → outcome = .ok () →
        ∃ pieces, all = so ++ pieces ∧ tunnelData pieces = payload) so
      (inSession side (sendTCPData P payload)) := by
  unfold sendTCPData
  split
  · refine (sendFrame_sessionMeets so
      (frameParses_tunnel (by simp [tunnelTypes]) _) _ _).mono ?_
    intro all outcome _ hsent hdir hdone
    obtain ⟨wire, rfl⟩ := hsent hdir hdone
    exact ⟨_, rfl, by simp [SentFrame.data]⟩
  · refine (sendChunks_sessionMeets so _ _ le_rfl).mono ?_
    intro all outcome _ hsent hdir hdone
    obtain ⟨pieces, rfl, hpieces, hpayload⟩ := hsent hdir hdone
    exact ⟨pieces, rfl, (tunnelData_pieces hpieces).trans hpayload⟩

theorem writeChunks_sessionMeets
    (so : List SentFrame) (fuel : ℕ) (p : Bytes) (written : ℕ)
    (hfuel : p.length ≤ fuel) :
    SessionMeets P keys quits ok dir
      (fun all result => dir = side → result.2 = .ok () →
        ∃ pieces, all = so ++ pieces ∧ tunnelData pieces = p) so
      (inSession side (writeChunks P fuel p written)) := by
  induction fuel generalizing so p written with
  | zero =>
      have hnil : p = [] := by simpa using hfuel
      exact ⟨trivial, fun _ _ => ⟨[], by simp, by simp [hnil]⟩⟩
  | succ fuel ih =>
      unfold writeChunks
      by_cases hnil : p = []
      · rw [if_pos hnil]
        exact ⟨trivial, fun _ _ => ⟨[], by simp, by simp [hnil]⟩⟩
      · rw [if_neg hnil, inSession, Proc.bind_eq, Proc.embed_bind]
        refine Proc.Meets.bind (sendTCPData_sessionMeets so _) ?_
        intro mid outcome _ hsent
        cases outcome with
        | ok value =>
            have hpos : 0 < p.length := List.length_pos_iff.mpr hnil
            refine (ih mid _ _ ?_).mono ?_
            · simp only [List.length_drop, List.length_take]
              simp only [maxPayload, maxFrameSize]
              omega
            · intro all result _ hrest hdir hdone
              obtain ⟨pieces, rfl, hpieces⟩ := hsent hdir rfl
              obtain ⟨more, rfl, hmore⟩ := hrest hdir hdone
              refine ⟨pieces ++ more, by simp, ?_⟩
              rw [tunnelData_append, hpieces, hmore, List.length_take,
                List.take_eq_take_min, List.take_append_drop]
        | error e => exact ⟨trivial, fun _ hok => by cases hok⟩
        | panic => exact ⟨trivial, fun _ hok => by cases hok⟩

theorem streamWrite_sessionMeets (p : Bytes) :
    SessionMeets P keys quits ok dir
      (fun all result => dir = side → result.2 = .ok () → tunnelData all = p) []
      (inSession side (streamWrite P p)) := by
  unfold streamWrite
  split
  · rename_i hnil
    exact ⟨trivial, fun _ _ => by simp [hnil]⟩
  · refine (writeChunks_sessionMeets [] _ _ _ le_rfl).mono ?_
    intro all result _ hsent hdir hdone
    obtain ⟨pieces, rfl, hpieces⟩ := hsent hdir hdone
    exact hpieces

abbrev TunnelMeets {α : Type} (P : Primitives) (keys : SessionKeys)
    (quits : Side → Prop) (dir : Side) (Post : List SentFrame → α → Prop)
    (so : List SentFrame) (p : TunnelProc α) : Prop :=
  Proc.Meets (fun t => SessionOk P keys quits t.pair) (fun _ _ _ => True)
    (fun t => t.pair.taken dir) (fun _ => True) Post so p

theorem onPair_meets
    {α : Type} {Post : List SentFrame → α → Prop} {so : List SentFrame}
    {p : Proc DuplexLabel StreamEnv LinkedPair α}
    (hmeets : SessionMeets P keys quits (fun _ _ _ => True) dir Post so p) :
    TunnelMeets P keys quits dir Post so (onPair p) := by
  rw [onPair]
  refine Proc.Meets.embed ?_ ?_ (fun hok => ?_) (fun _ => trivial)
    (fun _ hok => ?_) hmeets
  · exact fun _ _ _ => rfl
  · exact fun _ => rfl
  · exact hok
  · exact hok

/-- An action that neither sends nor receives. -/
theorem still_meets
    {α : Type} {label : TunnelLabel} {body : LiveEnv → Tunnel → α × Tunnel}
    (so : List SentFrame) (hbody : ∀ env t, (body env t).2.pair = t.pair) :
    TunnelMeets P keys quits dir (fun all _ => all = so) so
      (Proc.atomic label body) := by
  apply Proc.Meets.atomic trivial
  intro env t hst _
  rw [hbody]
  exact ⟨hst, [], by simp, trivial, List.append_nil so⟩

theorem pollRecv_meets (so : List SentFrame) :
    TunnelMeets P keys quits dir (fun all _ => all = so) so (pollRecv P side) := by
  apply Proc.Meets.atomic trivial
  intro env t hst _
  by_cases hready : LinkedPair.Ready (side, .recv) env.stream t.pair
  · simp only [if_pos hready]
    obtain ⟨hnext, htaken⟩ := hst.recvOpened env.stream hready
    refine ⟨hnext, [], ?_, trivial, List.append_nil so⟩
    rw [List.append_nil]
    exact htaken dir
  · simp only [if_neg hready]
    exact ⟨hst, [], (List.append_nil _).symm, trivial, List.append_nil so⟩

theorem tunnelRecv_meets (so : List SentFrame) (turns : ℕ) :
    TunnelMeets P keys quits dir (fun all _ => all = so) so
      (tunnelRecv P side turns) := by
  have hawait : ∀ turns, TunnelMeets P keys quits dir (fun all _ => all = so) so
      (awaitRecv P side turns) := by
    intro turns
    induction turns with
    | zero => exact ⟨trivial, rfl⟩
    | succ turns ih =>
        refine Proc.Meets.bind (pollRecv_meets so) ?_
        rintro all result _ rfl
        cases result with
        | none => exact ih
        | some result => exact ⟨trivial, rfl⟩
  unfold tunnelRecv
  refine Proc.Meets.bind (still_meets so (fun _ _ => rfl)) ?_
  rintro all closed _ rfl
  split
  · exact ⟨trivial, rfl⟩
  · exact hawait turns

theorem fillTunnelBuf_meets (so : List SentFrame) (turns : ℕ) :
    TunnelMeets P keys quits dir (fun all _ => all = so) so
      (fillTunnelBuf P side turns) := by
  induction turns with
  | zero => exact ⟨trivial, rfl⟩
  | succ turns ih =>
      unfold fillTunnelBuf
      refine Proc.Meets.bind (still_meets so (fun _ _ => rfl)) ?_
      rintro all readBuf _ rfl
      split
      · exact ⟨trivial, rfl⟩
      · refine Proc.Meets.bind (tunnelRecv_meets all turns) ?_
        rintro all result _ rfl
        rcases result with _ | e | ev
        · exact ⟨trivial, rfl⟩
        · exact ⟨trivial, rfl⟩
        · dsimp only
          split
          · split
            · exact ih
            · refine Proc.Meets.bind (still_meets all (fun _ _ => rfl)) ?_
              rintro all _ _ rfl
              exact ih
          · split
            · exact ih
            · exact ⟨trivial, rfl⟩

theorem lockRead_meets (so : List SentFrame) (me turns : ℕ) :
    TunnelMeets P keys quits dir (fun all _ => all = so) so
      (lockRead side me turns) := by
  induction turns with
  | zero => exact ⟨trivial, rfl⟩
  | succ turns ih =>
      unfold lockRead
      refine Proc.Meets.bind (still_meets so ?_) ?_
      · intro _ t
        split
        · rfl
        · rfl
      · rintro all taken _ rfl
        split
        · exact ⟨trivial, rfl⟩
        · exact ih

theorem tunnelRead_meets (so : List SentFrame) (me n turns : ℕ) :
    TunnelMeets P keys quits dir (fun _ _ => True) so
      (tunnelRead P turns side me n) := by
  unfold tunnelRead
  refine Proc.Meets.bind (lockRead_meets so me turns) ?_
  rintro all locked _ rfl
  split
  · refine Proc.Meets.bind (fillTunnelBuf_meets all turns) ?_
    rintro all result _ rfl
    rcases result with _ | e | _
    · exact ⟨trivial, trivial⟩
    · exact Proc.Meets.bind (still_meets all (fun _ _ => rfl))
        (fun _ _ _ _ => ⟨trivial, trivial⟩)
    · exact Proc.Meets.bind (still_meets all (fun _ _ => rfl))
        (fun _ _ _ _ => ⟨trivial, trivial⟩)
  · exact ⟨trivial, trivial⟩

theorem tunnelClose_meets (so : List SentFrame) (me : ℕ) (hquits : quits side) :
    TunnelMeets P keys quits dir (fun _ _ => True) so (tunnelClose side me) := by
  have hstream : TunnelMeets P keys quits dir (fun _ _ => True) so
      (Proc.atomic (.stream (side, .close)) (fun env t =>
        (if (t.pair.stream side).closed then none else env.trClose,
          t.putStream side (t.pair.stream side).close))) := by
    apply Proc.Meets.atomic trivial
    intro env t hst _
    obtain ⟨hnext, htaken⟩ := hst.close hquits
    refine ⟨hnext, [], ?_, trivial, trivial⟩
    rw [List.append_nil]
    exact htaken dir
  unfold tunnelClose
  refine Proc.Meets.bind (still_meets so ?_) ?_
  · intro _ t
    split
    · rfl
    · rfl
  · rintro all first _ rfl
    split
    · refine Proc.Meets.bind hstream ?_
      intro all err _ _
      exact (still_meets all (fun _ _ => rfl)).mono (fun _ _ _ _ => trivial)
    · exact (still_meets all (fun _ _ => rfl)).mono (fun _ _ _ _ => trivial)

/-- What a call leaves behind in one direction. -/
def TunnelLeaves (dir side : Side) (call : TunnelCall) (all : List SentFrame)
    (answer : TunnelAnswer) : Prop :=
  ∀ p n, call = .write p → dir = side → answer = .wrote n (.ok ()) →
    tunnelData all = p

theorem keepalive_meets
    (send : SendCall) {call : TunnelCall} (hcall : ∀ p, call ≠ .write p) :
    TunnelMeets P keys quits dir (TunnelLeaves dir side call) []
      (keepalive P side send) := by
  refine Proc.Meets.bind (onPair_meets send.sessionMeets) ?_
  intro all outcome _ _
  exact ⟨trivial, fun p _ h => absurd h (hcall p)⟩

theorem TunnelCall.meets
    (call : TunnelCall) (turns me : ℕ) (hquits : call = .close → quits side) :
    TunnelMeets P keys quits dir (TunnelLeaves dir side call) []
      (call.proc P turns side me) := by
  cases call with
  | write p =>
      refine Proc.Meets.bind (onPair_meets (streamWrite_sessionMeets p)) ?_
      rintro all ⟨n, outcome⟩ _ hsent
      refine ⟨trivial, ?_⟩
      rintro _ _ ⟨⟩ hdir hdone
      cases hdone
      exact hsent hdir rfl
  | read n =>
      refine Proc.Meets.bind (tunnelRead_meets [] me n turns) ?_
      intro all result _ _
      exact ⟨trivial, by rintro _ _ ⟨⟩⟩
  | ping cookie => exact keepalive_meets _ (by simp)
  | pong cookie => exact keepalive_meets _ (by simp)
  | coverPad padLen => exact keepalive_meets _ (by simp)
  | close =>
      refine Proc.Meets.bind (tunnelClose_meets [] me (hquits rfl)) ?_
      intro all result _ _
      exact ⟨trivial, by rintro _ _ ⟨⟩⟩

end Contracts

/-! ## Runs -/

section Runs

variable {keys : SessionKeys} {calls : List (Side × TunnelCall)} {turns : ℕ}

theorem TunnelCall.grants
    {side : Side} {me : ℕ} {t : Tunnel} (call : TunnelCall)
    (hbefore : t.readBy side me = []) :
    TunnelGrants me
      (fun answer t => ∀ result, answer = .read result →
        ReadLeaves side me result t) t (call.proc P turns side me) := by
  have hsend : ∀ send : SendCall,
      Proc.Acts (SendsOnly P tunnelTypes) (send.proc P) →
      TunnelGrants me
        (fun answer t => ∀ result, answer = .read result →
          ReadLeaves side me result t) t (keepalive P side send) := by
    intro send hacts
    refine Proc.Grants.bind (onPair_grants hacts t) ?_
    intro outcome t _ result h
    cases h
  cases call with
  | write p =>
      refine Proc.Grants.bind (onPair_grants
        (streamWrite_sendsOnly (by simp [tunnelTypes]) p) t) ?_
      rintro ⟨n, outcome⟩ t _ result h
      cases h
  | read n =>
      refine Proc.Grants.bind (tunnelRead_grants hbefore turns n) ?_
      intro result t hleaves result' h
      cases h
      exact hleaves
  | ping cookie =>
      exact hsend _ (sendFrame_sendsOnly (by simp [tunnelTypes]) _ _ _)
  | pong cookie =>
      exact hsend _ (sendFrame_sendsOnly (by simp [tunnelTypes]) _ _ _)
  | coverPad padLen =>
      exact hsend _ (sendFrame_sendsOnly (by simp [tunnelTypes]) _ _ _)
  | close =>
      refine Proc.Grants.bind (tunnelClose_grants t) ?_
      intro result t _ result' h
      cases h

end Runs

namespace Transparent

end Transparent

end SingEwp
