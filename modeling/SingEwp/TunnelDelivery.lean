import SingEwp.StreamIntegrity
import SingEwp.TunnelReader

/-!
# The TCP tunnel end to end

One goroutine writes, others send cover traffic between its frames, and the peer
reads.  The writer's side is a contract on the data it appends to the log of
frames, kept through any interleaving with the cover traffic; together with the
reader's invariant it makes the tunnel the identity on the written bytes.
-/

namespace SingEwp

/-! ## The writer -/

/-- The sending stream of a working tunnel. -/
structure TunnelOpen (P : Primitives) (f : FrameAEAD) (s : SecureStream) :
    Prop where
  stream_open : s.closed = false
  ledger : Ledger P f s
  types : ∀ e ∈ s.handed, e.type ∈ tunnelTypes
  sizes : ∀ e ∈ s.handed, e.wire.length ≤ maxFrameSize

/-- Frames go out over a length framer on a working connection, and the random
source serves the pads. -/
def TunnelGuard (label : StreamLabel) (env : StreamEnv) (_ : SecureStream) :
    Prop :=
  label = .sendLocked →
    env.sendMessage = framerAccept ∧ ∀ n, env.pad n ≠ none

theorem TunnelOpen.sendLocked
    {P : Primitives} {f : FrameAEAD} {s : SecureStream} {t : FrameType}
    {metaBytes payload : Bytes} {padLen : ℤ} {env : StreamEnv}
    (hopen : TunnelOpen P f s) (htype : t ∈ tunnelTypes)
    (hframer : env.sendMessage = framerAccept)
    (hstill : (sendFrameLocked P t metaBytes payload padLen env s).2.closed =
      false) :
    TunnelOpen P f (sendFrameLocked P t metaBytes payload padLen env s).2 ∧
      ∃ new, (sendFrameLocked P t metaBytes payload padLen env s).2.handed =
          s.handed ++ new ∧
        (∀ e ∈ new, e.type = t) ∧
        ((sendFrameLocked P t metaBytes payload padLen env s).1 = .ok () →
          ∃ wire, new = [⟨t, metaBytes, payload, wire⟩]) := by
  have hledger := sendFrameLocked_ledger hopen.ledger t metaBytes payload padLen
    env
  have hstep := sendFrameLocked_step P t metaBytes payload padLen env s
  generalize sendFrameLocked P t metaBytes payload padLen env s = r
    at hstep hstill hledger ⊢
  cases hstep with
  | kept outcome cap failed =>
      exact ⟨⟨hstill, hledger, hopen.types, hopen.sizes⟩, [], by simp, by simp,
        fun hok => absurd hok (SendStep.ne_ok_of_failed failed)⟩
  | taken cap fr hfr hmeta hpayload hsend =>
      rw [hframer, framerAccept_none_iff] at hsend
      subst hfr hmeta hpayload
      refine ⟨⟨hstill, hledger, ?_, ?_⟩, [_], rfl, by simp, fun _ => ⟨_, rfl⟩⟩
      · intro e he
        rcases List.mem_append.mp he with hold | hnew
        · exact hopen.types e hold
        · rw [List.mem_singleton.mp hnew]
          exact htype
      · intro e he
        rcases List.mem_append.mp he with hold | hnew
        · exact hopen.sizes e hold
        · rw [List.mem_singleton.mp hnew]
          exact hsend
  | refused cap fr hfr hmeta hpayload e hsend => simp at hstill

def Within (target : Bytes) (all : List SentFrame) : Prop :=
  tunnelData all <+: target

/-- What a thread of the writer does: it sends `bytes` and returns `result`, and
the data it has sent never leaves the stream `target`. -/
def Sends {α : Type} (P : Primitives) (f : FrameAEAD) (target : Bytes)
    (so : List SentFrame) (bytes : Bytes) (result : α) (p : StreamProc α) :
    Prop :=
  Proc.Meets (TunnelOpen P f) TunnelGuard SecureStream.handed
    (Within target)
    (fun all r => tunnelData all = tunnelData so ++ bytes ∧ r = result) so p

/-! ### The loops of `Write`

What a `Write` puts into the log, piece by piece, whatever it relies on (`I`,
`ok`).  A call is good if it has no error; then it has sent its bytes and kept
`E`.  `F` holds after a call that is not.  With `once`, the target is one string
that is short enough not to be cut. -/

/-- The frames on the way to `target`. -/
structure Pieces (target : Bytes) (once : Prop) (all : List SentFrame) :
    Prop where
  within : Within target all
  cut : ∀ e ∈ all, e.data ≠ [] ∧ e.data.length ≤ reshapeMax
  whole : once → all = [] ∨ (all.length = 1 ∧ tunnelData all = target)

/-- The bytes that a loop is to send next. -/
structure Ahead (target : Bytes) (once : Prop) (so : List SentFrame)
    (bytes : Bytes) : Prop where
  fits : tunnelData so ++ bytes <+: target
  whole : once → target.length ≤ reshapeMax ∧ tunnelData so ++ bytes = target

theorem Pieces.nil (target : Bytes) (once : Prop) : Pieces target once [] :=
  ⟨List.nil_prefix, by simp, fun _ => Or.inl rfl⟩

theorem Ahead.self
    {target : Bytes} {once : Prop} (hshort : once → target.length ≤ reshapeMax) :
    Ahead target once [] target :=
  ⟨by simp, fun honce => ⟨hshort honce, by simp⟩⟩

theorem Pieces.append
    {target piece wire : Bytes} {once : Prop} {so : List SentFrame}
    (hpieces : Pieces target once so) (hahead : Ahead target once so piece)
    (hne : piece ≠ []) (hsmall : piece.length ≤ reshapeMax) :
    Pieces target once (so ++ [⟨frameTCPData, [], piece, wire⟩]) := by
  have hdata : (⟨frameTCPData, [], piece, wire⟩ : SentFrame).data = piece := rfl
  have hall : tunnelData (so ++ [⟨frameTCPData, [], piece, wire⟩]) =
      tunnelData so ++ piece := by
    rw [tunnelData_append, tunnelData_singleton, hdata]
  refine ⟨by rw [Within, hall]; exact hahead.fits, ?_, ?_⟩
  · intro e he
    rcases List.mem_append.mp he with hold | hnew
    · exact hpieces.cut e hold
    · rw [List.mem_singleton.mp hnew, hdata]
      exact ⟨hne, hsmall⟩
  · intro honce
    obtain ⟨_, hwhole⟩ := hahead.whole honce
    rcases hpieces.whole honce with rfl | ⟨_, hdone⟩
    · exact Or.inr ⟨rfl, by rw [hall, hwhole]⟩
    · -- the first piece was the whole string
      rw [hdone] at hwhole
      exact absurd (List.self_eq_append_right.mp hwhole.symm) hne

theorem Ahead.take
    {target bytes : Bytes} {once : Prop} {so : List SentFrame} {k : ℕ}
    (hahead : Ahead target once so bytes)
    (hk : bytes.length ≤ reshapeMax → bytes.length ≤ k) :
    Ahead target once so (bytes.take k) := by
  constructor
  · have hfits := hahead.fits
    rw [← List.take_append_drop k bytes, ← List.append_assoc] at hfits
    exact (List.prefix_append _ _).trans hfits
  · intro honce
    obtain ⟨hshort, hwhole⟩ := hahead.whole honce
    have hlen := congrArg List.length hwhole
    rw [List.length_append] at hlen
    rw [List.take_of_length_le (hk (by omega))]
    exact ⟨hshort, hwhole⟩

theorem Ahead.drop
    {target bytes : Bytes} {once : Prop} {so mid : List SentFrame} {k : ℕ}
    (hahead : Ahead target once so bytes)
    (hmid : tunnelData mid = tunnelData so ++ bytes.take k) :
    Ahead target once mid (bytes.drop k) := by
  have hall : tunnelData mid ++ bytes.drop k = tunnelData so ++ bytes := by
    rw [hmid, List.append_assoc, List.take_append_drop]
  exact ⟨by rw [hall]; exact hahead.fits, by rw [hall]; exact hahead.whole⟩

def Emits {α : Type} (I : SecureStream → Prop)
    (ok : StreamLabel → StreamEnv → SecureStream → Prop) (target : Bytes)
    (once : Prop) (E : List SentFrame → Prop) (F : Prop) (so : List SentFrame)
    (bytes : Bytes) (good : α → Prop) (value : α) (p : StreamProc α) : Prop :=
  Proc.Meets I ok SecureStream.handed (Pieces target once)
    (fun all r =>
      (good r → r = value ∧ tunnelData all = tunnelData so ++ bytes ∧ E all) ∧
        (¬good r → F)) so p

/-- The outcome of a method that sends. -/
def SentOk (outcome : Outcome EwpError Unit) : Prop := outcome = .ok ()

/-- The result of a `Write` without error. -/
def WroteOk (result : ℕ × Outcome EwpError Unit) : Prop := result.2 = .ok ()

section Writer

variable {P : Primitives} {I : SecureStream → Prop}
variable {ok : StreamLabel → StreamEnv → SecureStream → Prop}
variable {target : Bytes} {once : Prop} {E : List SentFrame → Prop} {F : Prop}
variable {so : List SentFrame}

theorem Emits.pure
    {α : Type} {good : α → Prop} {value : α} (hso : Pieces target once so)
    (hkept : E so) (hgood : good value) :
    Emits I ok target once E F so [] good value (.ret value) :=
  ⟨hso, fun _ => ⟨rfl, by simp, hkept⟩, fun hbad => absurd hgood hbad⟩

theorem Emits.bind
    {α β : Type} {bytes first second : Bytes} {good : α → Prop}
    {good' : β → Prop} {a : α} {b : β} {p : StreamProc α}
    {rest : α → StreamProc β} (hbytes : first ++ second = bytes)
    (hfirst : Emits I ok target once E F so first good a p)
    (hrest : ∀ mid, tunnelData mid = tunnelData so ++ first →
      Pieces target once mid → E mid →
        Emits I ok target once E F mid second good' b (rest a))
    (hfailed : ∀ r, ¬good r → ∃ r', rest r = .ret r' ∧ ¬good' r') :
    Emits I ok target once E F so bytes good' b (p.bind rest) := by
  subst hbytes
  apply Proc.Meets.bind hfirst
  rintro mid result hduring ⟨hgood, hbad⟩
  by_cases hresult : good result
  · obtain ⟨rfl, hmid, hkept⟩ := hgood hresult
    apply Proc.Meets.mono (hrest mid hmid hduring hkept)
    rintro all r _ ⟨hr, hr'⟩
    refine ⟨fun hg => ?_, hr'⟩
    obtain ⟨hvalue, hall, hkept'⟩ := hr hg
    exact ⟨hvalue, by rw [hall, hmid, List.append_assoc], hkept'⟩
  · obtain ⟨r', hr', hbad'⟩ := hfailed result hresult
    rw [hr']
    exact ⟨hduring, fun hg => absurd hg hbad', fun _ => hbad hresult⟩

/-- Where no call fails, every result is the expected one. -/
theorem Emits.always
    {α : Type} {bytes : Bytes} {good : α → Prop} {value : α} {p : StreamProc α}
    (hemits : Emits I ok target once E False so bytes good value p) :
    Emits I ok target once E False so bytes (fun _ => True) value p := by
  apply Proc.Meets.mono hemits
  rintro all r _ ⟨hgood, hbad⟩
  exact ⟨fun _ => hgood (not_not.mp hbad), fun hnot => hnot trivial⟩

section Loops

variable (hframe : ∀ (so : List SentFrame) (piece : Bytes),
  piece ≠ [] → piece.length ≤ reshapeMax → Ahead target once so piece →
    Pieces target once so → E so →
      Emits I ok target once E F so piece SentOk (.ok ())
        (sendFrame P frameTCPData [] piece (-1)))

include hframe

theorem sendChunks_emits
    {fuel : ℕ} {payload : Bytes} (hfuel : payload.length ≤ fuel)
    (hahead : Ahead target once so payload) (hso : Pieces target once so)
    (hkept : E so) :
    Emits I ok target once E F so payload SentOk (.ok ())
      (sendChunks P fuel payload) := by
  induction fuel generalizing so payload with
  | zero =>
      have hnil : payload = [] := List.eq_nil_of_length_eq_zero (by omega)
      subst hnil
      exact Emits.pure hso hkept rfl
  | succ fuel ih =>
      unfold sendChunks
      by_cases hnil : payload = []
      · rw [if_pos hnil, hnil]
        exact Emits.pure hso hkept rfl
      · rw [if_neg hnil]
        have hpos := List.length_pos_iff.mpr hnil
        have hdraw : Proc.Meets I ok SecureStream.handed (Pieces target once)
            (fun all chunk => all = so ∧ 0 < chunk ∧ chunk ≤ reshapeMax ∧
              (payload.length ≤ reshapeMax → payload.length ≤ chunk)) so
            (Proc.atomic .chunkDraw
              (fun env s => (nextChunk payload.length env.chunk, s))) := by
          apply Proc.Meets.atomic hso
          intro env s hinv _
          exact ⟨hinv, [], by simp, by simpa using hso, by simp,
            nextChunk_pos hpos _, nextChunk_le _ _,
            fun hshort => (nextChunk_of_le hshort _).ge⟩
        apply Proc.Meets.bind hdraw
        rintro all chunk _ ⟨hall, hchunk, hle, hwhole⟩
        rw [hall]
        have hpiece : (payload.take chunk).length ≤ reshapeMax :=
          (List.length_take_le _ _).trans hle
        have hne : payload.take chunk ≠ [] := by
          simp [hnil]
          omega
        apply Emits.bind (List.take_append_drop chunk payload)
          (hframe so _ hne hpiece (hahead.take hwhole) hso hkept)
        · intro mid hmid hso' hkept'
          exact ih (by rw [List.length_drop]; omega) (hahead.drop hmid) hso'
            hkept'
        · intro outcome hbad
          cases outcome with
          | ok value => exact absurd rfl hbad
          | error e => exact ⟨.error e, rfl, by simp [SentOk]⟩
          | panic => exact ⟨.panic, rfl, by simp [SentOk]⟩

theorem sendTCPData_emits
    {payload : Bytes} (hne : payload ≠ []) (hahead : Ahead target once so payload)
    (hso : Pieces target once so) (hkept : E so) :
    Emits I ok target once E F so payload SentOk (.ok ())
      (sendTCPData P payload) := by
  unfold sendTCPData
  by_cases hshort : payload.length ≤ reshapeThreshold
  · rw [if_pos hshort]
    apply hframe so payload hne _ hahead hso hkept
    simp only [reshapeThreshold, reshapeMax] at *
    omega
  · rw [if_neg hshort]
    exact sendChunks_emits hframe le_rfl hahead hso hkept

theorem writeChunks_emits
    {fuel written : ℕ} {p : Bytes} (hfuel : p.length ≤ fuel)
    (hahead : Ahead target once so p) (hso : Pieces target once so) (hkept : E so) :
    Emits I ok target once E F so p WroteOk (written + p.length, .ok ())
      (writeChunks P fuel p written) := by
  induction fuel generalizing so p written with
  | zero =>
      have hnil : p = [] := List.eq_nil_of_length_eq_zero (by omega)
      subst hnil
      exact Emits.pure hso hkept rfl
  | succ fuel ih =>
      unfold writeChunks
      by_cases hnil : p = []
      · rw [if_pos hnil, hnil]
        exact Emits.pure hso hkept rfl
      · rw [if_neg hnil]
        have hpos := List.length_pos_iff.mpr hnil
        have hchunk : (p.take maxPayload).length = min maxPayload p.length :=
          List.length_take
        have hdrop : p.drop (p.take maxPayload).length = p.drop maxPayload := by
          rw [hchunk, ← List.drop_eq_drop_min]
        have hne : p.take maxPayload ≠ [] := by simp [hnil]
        have hfits : p.length ≤ reshapeMax → p.length ≤ maxPayload := by
          simp [reshapeMax]
          omega
        dsimp only
        rw [hdrop]
        apply Emits.bind (List.take_append_drop maxPayload p)
          (sendTCPData_emits hframe hne (hahead.take hfits) hso hkept)
        · intro mid hmid hso' hkept'
          have htotal : written + p.length =
              written + (p.take maxPayload).length +
                (p.drop maxPayload).length := by
            rw [List.length_drop, hchunk]
            omega
          rw [htotal]
          refine ih ?_ (hahead.drop hmid) hso' hkept'
          rw [List.length_drop]
          simp
          omega
        · intro outcome hbad
          cases outcome with
          | ok value => exact absurd rfl hbad
          | error e => exact ⟨(written, .error e), rfl, by simp [WroteOk]⟩
          | panic => exact ⟨(written, .panic), rfl, by simp [WroteOk]⟩

theorem streamWrite_emits
    {p : Bytes} (hahead : Ahead target once so p) (hso : Pieces target once so)
    (hkept : E so) :
    Emits I ok target once E F so p WroteOk (p.length, .ok ()) (streamWrite P p) := by
  unfold streamWrite
  by_cases hnil : p = []
  · rw [if_pos hnil, hnil]
    exact Emits.pure hso hkept rfl
  · rw [if_neg hnil]
    have hchunks : Emits I ok target once E F so p WroteOk (0 + p.length, .ok ())
        (writeChunks P p.length p 0) :=
      writeChunks_emits hframe le_rfl hahead hso hkept
    rwa [zero_add] at hchunks

end Loops

end Writer

/-! ### Over a working connection -/

section Working

variable {P : Primitives} {f : FrameAEAD} {target : Bytes}
variable {so : List SentFrame}

/-- Every frame goes out, so no call fails. -/
theorem sendFrame_works
    {once : Prop} (so : List SentFrame) (piece : Bytes) (hne : piece ≠ [])
    (hsmall : piece.length ≤ reshapeMax) (hahead : Ahead target once so piece)
    (hso : Pieces target once so) :
    Emits (TunnelOpen P f) TunnelGuard target once (fun _ => True) False so piece
      SentOk (.ok ()) (sendFrame P frameTCPData [] piece (-1)) := by
  apply sendFrame_meets hso
  · intro s hopen hclosed
    rw [hopen.stream_open] at hclosed
    simp at hclosed
  · intro env s hopen hguard
    obtain ⟨hframer, hdraw⟩ := hguard rfl
    obtain ⟨hok, hclosed⟩ := sendFrameLocked_piece (P := P) (s := s)
      (.of_framer hframer) hdraw hsmall
    obtain ⟨hnext, new, hhanded, _, hnew⟩ := hopen.sendLocked
      (by simp [tunnelTypes]) hframer (hclosed.trans hopen.stream_open)
    obtain ⟨wire, rfl⟩ := hnew hok
    have hdata : tunnelData (so ++ [⟨frameTCPData, [], piece, wire⟩]) =
        tunnelData so ++ piece := by
      simp [SentFrame.data]
    exact ⟨hnext, _, hhanded, hso.append hahead hne hsmall,
      fun _ => ⟨hok, hdata, trivial⟩, fun hbad => hbad hok⟩

theorem streamWrite_works
    {once : Prop} {p : Bytes} (hahead : Ahead target once so p)
    (hso : Pieces target once so) :
    Emits (TunnelOpen P f) TunnelGuard target once (fun _ => True) False so p
      WroteOk (p.length, .ok ()) (streamWrite P p) :=
  streamWrite_emits (fun so piece hne hsmall hahead hso _ =>
    sendFrame_works so piece hne hsmall hahead hso) hahead hso trivial

end Working

/-! ## Both ends -/

/-- A goroutine that calls `Write` on each of the strings in turn. -/
def writeAll (P : Primitives) :
    List Bytes → StreamProc (List (ℕ × Outcome EwpError Unit))
  | [] => pure []
  | p :: ps => do
      let result ← streamWrite P p
      let results ← writeAll P ps
      pure (result :: results)

theorem writeAll_works
    {P : Primitives} {f : FrameAEAD} {target : Bytes} {so : List SentFrame}
    {ps : List Bytes} (hahead : Ahead target False so ps.flatten)
    (hso : Pieces target False so) :
    Emits (TunnelOpen P f) TunnelGuard target False (fun _ => True) False so
      ps.flatten (fun _ => True) (ps.map (fun p => (p.length, .ok ())))
      (writeAll P ps) := by
  induction ps generalizing so with
  | nil => exact Emits.pure hso trivial trivial
  | cons p ps ih =>
      have hfits := hahead.fits
      rw [List.flatten_cons] at hfits ⊢
      rw [← List.append_assoc] at hfits
      have hfirst : Ahead target False so p :=
        ⟨(List.prefix_append _ _).trans hfits, False.elim⟩
      apply Emits.bind rfl (streamWrite_works hfirst hso).always
      · intro mid hmid hso' _
        rw [← hmid] at hfits
        apply Emits.bind (List.append_nil _) (ih ⟨hfits, False.elim⟩ hso')
        · exact fun last _ hlast _ => Emits.pure hlast trivial trivial
        · exact fun _ hnot => absurd trivial hnot
      · exact fun _ hnot => absurd trivial hnot

theorem writeAll_sends (P : Primitives) (f : FrameAEAD) (ps : List Bytes) :
    Sends P f ps.flatten [] ps.flatten (ps.map (fun p => (p.length, .ok ())))
      (writeAll P ps) := by
  have hworks := writeAll_works (P := P) (f := f)
    (Ahead.self (fun hfalse => hfalse.elim)) (Pieces.nil ps.flatten False)
  refine (hworks.mono ?_).mono_during (fun _ hall => hall.within)
  rintro all r _ ⟨hgood, _⟩
  obtain ⟨hvalue, hdata, _⟩ := hgood trivial
  exact ⟨hdata, hvalue⟩

/-- A call that sends one keepalive or cover frame. -/
structure CoverCall where
  type : FrameType
  payload : Bytes
  padLen : ℤ
  type_cover : type ∈ [framePaddingOnly, framePing, framePong]
  /-- The framer takes the message or the encoder refuses it. -/
  agreed : rawWireLen 0 payload.length + padLen.toNat ≤ maxFrameSize ∨
    maxFrameSize + 4 < rawWireLen 0 payload.length + padLen.toNat

inductive TunnelResult where
  | wrote (results : List (ℕ × Outcome EwpError Unit))
  | covered (outcome : Outcome EwpError Unit)

/-- The writer is thread 0; the other threads send cover traffic. -/
def tunnelPool (P : Primitives) (keys : SessionKeys) (side : Side)
    (ps : List Bytes) (covers : List CoverCall) :
    Pool StreamLabel StreamEnv SecureStream TunnelResult where
  shared := newSecureStream keys side
  threads :=
    (writeAll P ps).bind (fun results => .ret (.wrote results)) ::
      covers.map (fun call =>
        (sendFrame P call.type [] call.payload call.padLen).bind
          (fun outcome => .ret (.covered outcome)))

theorem CoverCall.locked_open
    {P : Primitives} {s : SecureStream} {env : StreamEnv} (call : CoverCall)
    (hopen : s.closed = false) (hframer : env.sendMessage = framerAccept) :
    (sendFrameLocked P call.type [] call.payload call.padLen env s).2.closed =
      false := by
  have hagreed := call.agreed
  apply sendFrameLocked_stays_open hframer hopen rfl
  intro w f' henc
  have hlen := encodeFrameAppend_length henc
  have hle := encodeFrameAppend_length_le henc
  rw [List.length_nil] at hlen
  by_cases hauto : call.padLen < 0
  · have hwithin := framePad_auto hauto s
      (rawWireLen ([] : Bytes).length call.payload.length) env.bucket
    rw [List.length_nil] at hwithin
    have hnonneg := hwithin.nonneg
    rcases hwithin.fits with hfits | hzero
    · rw [hlen]
      simp at hfits ⊢
      omega
    · rw [hzero] at hlen
      omega
  · rw [framePad, if_neg hauto] at hlen
    omega

def NoData (all : List SentFrame) : Prop := ∀ e ∈ all, e.type ≠ frameTCPData

theorem CoverCall.meets
    {P : Primitives} {f : FrameAEAD} (call : CoverCall) :
    Proc.Meets (TunnelOpen P f) TunnelGuard SecureStream.handed
      NoData (fun _ _ => True) []
      ((sendFrame P call.type [] call.payload call.padLen).bind
        (fun outcome => .ret (TunnelResult.covered outcome))) := by
  have hsend : Proc.Meets (TunnelOpen P f) TunnelGuard SecureStream.handed
      NoData (fun _ _ => True) []
      (sendFrame P call.type [] call.payload call.padLen) := by
    have hstart : NoData [] := by simp [NoData]
    apply sendFrame_meets hstart (fun _ _ _ => trivial)
    intro env s hopen hguard
    have hcover := call.type_cover
    simp only [List.mem_cons, List.not_mem_nil, or_false] at hcover
    have htype : call.type ∈ tunnelTypes := by
      simp only [tunnelTypes, List.mem_cons, List.not_mem_nil, or_false]
      tauto
    have hne : call.type ≠ frameTCPData := by
      rcases hcover with h | h | h <;> rw [h] <;> decide
    obtain ⟨hnext, new, hhanded, hnew, _⟩ := hopen.sendLocked htype
      (hguard rfl).1 (call.locked_open hopen.stream_open (hguard rfl).1)
    refine ⟨hnext, new, hhanded, ?_, trivial⟩
    intro e he
    rw [hnew e (by simpa using he)]
    exact hne
  exact Proc.Meets.bind hsend (fun _ _ hduring _ => ⟨hduring, trivial⟩)

/-- What each thread may append at any moment. -/
def TunnelDuring (ps : List Bytes) : ℕ → List SentFrame → Prop
  | 0 => Within ps.flatten
  | _ + 1 => NoData

def TunnelPost (ps : List Bytes) : ℕ → List SentFrame → TunnelResult → Prop
  | 0 => fun all result => tunnelData all = ps.flatten ∧
      result = .wrote (ps.map (fun p => (p.length, .ok ())))
  | _ + 1 => fun _ _ => True

theorem tunnelPool_meets
    (P : Primitives) (keys : SessionKeys) (side : Side) (f : FrameAEAD)
    (ps : List Bytes) (covers : List CoverCall) (thread : ℕ)
    (p : StreamProc TunnelResult)
    (hp : (tunnelPool P keys side ps covers).threads[thread]? = some p) :
    Proc.Meets (TunnelOpen P f) TunnelGuard SecureStream.handed
      (TunnelDuring ps thread) (TunnelPost ps thread) [] p := by
  cases thread with
  | zero =>
      simp only [tunnelPool, List.getElem?_cons_zero, Option.some.injEq] at hp
      subst hp
      apply Proc.Meets.bind (writeAll_sends P f ps)
      rintro mid results hduring ⟨hdata, hresults⟩
      exact ⟨hduring, by simpa using hdata, by rw [hresults]⟩
  | succ thread =>
      simp only [tunnelPool, List.getElem?_cons_succ, List.getElem?_map,
        Option.map_eq_some_iff] at hp
      obtain ⟨call, _, rfl⟩ := hp
      exact call.meets

theorem tunnelData_filter (log : List SentFrame) :
    tunnelData (log.filter (fun e => e.type = frameTCPData)) =
      tunnelData log := by
  induction log with
  | nil => rfl
  | cons e log ih =>
      rw [← List.singleton_append (l := log), List.filter_append,
        tunnelData_append, tunnelData_append, ih]
      by_cases htcp : e.type = frameTCPData
      · simp [htcp]
      · simp [htcp, SentFrame.data]

theorem tunnelOpen_newSecureStream
    (P : Primitives) (keys : SessionKeys) (side : Side) :
    TunnelOpen P (newSecureStream keys side).send (newSecureStream keys side) where
  stream_open := by cases side <;> rfl
  ledger := (newSecureStream_invariant P keys side).1
  types := by simp [newSecureStream_handed]
  sizes := by simp [newSecureStream_handed]

def newReader (keys : SessionKeys) (side : Side) : StreamConn where
  stream := newSecureStream keys side.peer
  conn := { arrived := [] }

theorem newReader_reading
    {keys : SessionKeys} {side : Side} {log : List SentFrame} {later : Bytes}
    (hlater : later = wireBytes log) :
    Reading (newSecureStream keys side).send log 0 later []
      (newReader keys side) := by
  refine ⟨Nat.zero_le _, ?_, ?_, rfl, hlater, rfl⟩
  · cases side <;> rfl
  · cases side <;> rfl

theorem tunnelPool_run
    {P : Primitives} {keys : SessionKeys} {side : Side} {ps : List Bytes}
    {covers : List CoverCall} {schedule : List (ℕ × StreamEnv)}
    {pool : Pool StreamLabel StreamEnv SecureStream TunnelResult}
    (hguard : (tunnelPool P keys side ps covers).Admits TunnelGuard schedule)
    (hpool : (tunnelPool P keys side ps covers).run schedule = pool) :
    0 < pool.threads.length ∧
      TunnelOpen P (newSecureStream keys side).send pool.shared ∧
      tunnelData pool.shared.handed <+: ps.flatten ∧
      ∀ result, pool.threads[0]? = some (.ret result) →
        tunnelData pool.shared.handed = ps.flatten ∧
          result = .wrote (ps.map (fun p => (p.length, .ok ()))) := by
  have hmeets := tunnelPool_meets P keys side (newSecureStream keys side).send
    ps covers
  have hinit := tunnelOpen_newSecureStream P keys side
  obtain ⟨hopen, hthreads⟩ := Pool.run_meets hmeets hguard hinit
  -- the other threads append no data, so the data in the log is the writer's
  have hothers : ∀ thread entries, thread ≠ 0 →
      TunnelDuring ps thread entries →
      entries.filter (fun e => decide (e.type = frameTCPData)) = [] := by
    intro thread entries hne hduring
    cases thread with
    | zero => exact absurd rfl hne
    | succ thread =>
        rw [List.filter_eq_nil_iff]
        intro e he
        simpa using hduring e he
  have hfilter := Pool.run_log_filter (fun _ => []) hmeets hothers hguard hinit
  have hempty : (tunnelPool P keys side ps covers).shared.handed = [] :=
    newSecureStream_handed keys side
  rw [hempty, List.filter_nil, List.nil_append] at hfilter
  have hlt : 0 < ((tunnelPool P keys side ps covers).run
      schedule).threads.length := by
    rw [Pool.run_threads_length]
    simp [tunnelPool]
  rw [hpool] at hopen hthreads hfilter hlt
  have hdata : tunnelData pool.shared.handed =
      tunnelData ((tunnelPool P keys side ps covers).contribution
        SecureStream.handed 0 schedule) := by
    rw [← tunnelData_filter, hfilter, tunnelData_filter]
  rw [hdata]
  exact ⟨hlt, hopen, (hthreads 0 _ (List.getElem?_eq_getElem hlt)).during,
    fun result hdone => (hthreads 0 _ hdone).2⟩

/-- A writer that keeps getting turns returns, and every write returns its
length; the reads never fail and return a prefix of what was written, and all of
it once everything has arrived and been consumed. -/
theorem tunnel_delivery
    (P : Primitives) (keys : SessionKeys) (side : Side) (ps : List Bytes)
    (covers : List CoverCall) (schedule : List (ℕ × StreamEnv))
    (hguard : (tunnelPool P keys side ps covers).Admits TunnelGuard schedule)
    (ops : List ReaderOp) (hsizes : ∀ n, ReaderOp.read n ∈ ops → 0 < n)
    (harrived : arrivals ops <+: wireBytes
      ((tunnelPool P keys side ps covers).run schedule).shared.handed) :
    (∀ turns : ℕ → ℕ × StreamEnv, (∀ n, ∃ m, n ≤ m ∧ (turns m).1 = 0) →
      ∃ n result,
        (((tunnelPool P keys side ps covers).run schedule).run
          ((List.range n).map turns)).threads[0]? = some (.ret result)) ∧
    (∀ result,
      ((tunnelPool P keys side ps covers).run schedule).threads[0]? =
          some (.ret result) →
        result = .wrote (ps.map (fun p => (p.length, .ok ())))) ∧
    (∀ result ∈ (readerRun P ops (newReader keys side)).1, ReadFine result) ∧
    returned (readerRun P ops (newReader keys side)).1 <+: ps.flatten ∧
    ((∃ result,
        ((tunnelPool P keys side ps covers).run schedule).threads[0]? =
          some (.ret result)) →
      arrivals ops = wireBytes
        ((tunnelPool P keys side ps covers).run schedule).shared.handed →
      ((readerRun P ops (newReader keys side)).2.conn.pending = [] →
        (readerRun P ops (newReader keys side)).2.readBuf = [] →
        returned (readerRun P ops (newReader keys side)).1 = ps.flatten) ∧
      (∀ n, 0 < n →
        (streamRead P n (readerRun P ops (newReader keys side)).2).1 = none →
        returned (readerRun P ops (newReader keys side)).1 = ps.flatten)) := by
  generalize hpool : (tunnelPool P keys side ps covers).run schedule = pool
    at harrived ⊢
  obtain ⟨hlt, hopen, hwithin, hwriter⟩ := tunnelPool_run hguard hpool
  have hlog : TunnelLog P (newSecureStream keys side).send pool.shared.handed :=
    ⟨hopen.ledger.frames, hopen.types, hopen.sizes⟩
  obtain ⟨tail, htail⟩ := harrived
  obtain ⟨hfine, k, hreading⟩ :=
    readerRun_reading hlog hsizes (newReader_reading htail)
  generalize readerRun P ops (newReader keys side) = reader
    at hfine hreading ⊢
  rw [List.nil_append] at hreading
  refine ⟨fun turns hfair => Pool.finishes_of_fair hlt hfair,
    fun result hdone => (hwriter result hdone).2, hfine,
    hreading.out_isPrefix.trans hwithin, ?_⟩
  rintro ⟨result, hdone⟩ hall
  have htailNil : tail = [] := by
    rw [hall] at htail
    simpa using htail
  subst htailNil
  rw [← (hwriter result hdone).1]
  exact ⟨hreading.out_eq_of_consumed,
    fun n hn hwait => hreading.out_eq_of_wait hlog hn hwait⟩

namespace Transparent

def tunnel : Pool StreamLabel StreamEnv SecureStream TunnelResult :=
  tunnelPool suite keys .client [[1, 2]] []

def tunnelSchedule : List (ℕ × StreamEnv) := [(0, framerEnv), (0, framerEnv)]

def tunnelOps : List ReaderOp :=
  [.arrive (wireBytes (tunnel.run tunnelSchedule).shared.handed), .read 5]

theorem framerEnv_guard (label : StreamLabel) (s : SecureStream) :
    TunnelGuard label framerEnv s :=
  fun _ => ⟨rfl, fun _ => by simp [framerEnv, streamEnv]⟩

theorem tunnel_done :
    ∃ result, (tunnel.run tunnelSchedule).threads[0]? = some (.ret result) := by
  have hdone : ((tunnel.run tunnelSchedule).threads[0]?.bind
      Proc.result?).isSome = true := by
    decide +kernel
  obtain ⟨result, hresult⟩ := Option.isSome_iff_exists.mp hdone
  exact ⟨result, Pool.finished_of_result? hresult⟩

theorem tunnel_consumed :
    (readerRun suite tunnelOps (newReader keys .client)).2.conn.pending = [] ∧
      (readerRun suite tunnelOps (newReader keys .client)).2.readBuf = [] := by
  decide +kernel

end Transparent

theorem tunnel_delivery_two_bytes :
    returned (readerRun Transparent.suite Transparent.tunnelOps
      (newReader Transparent.keys .client)).1 = [1, 2] :=
  ((tunnel_delivery Transparent.suite Transparent.keys .client [[1, 2]] []
      Transparent.tunnelSchedule
      ⟨fun label _ _ _ => Transparent.framerEnv_guard label _,
        fun label _ _ _ => Transparent.framerEnv_guard label _, trivial⟩
      Transparent.tunnelOps (by simp [Transparent.tunnelOps])
      (by simp [Transparent.tunnelOps, arrivals, Transparent.tunnel])).2.2.2.2
    Transparent.tunnel_done
    (by simp [Transparent.tunnelOps, arrivals, Transparent.tunnel])).1
    Transparent.tunnel_consumed.1 Transparent.tunnel_consumed.2

end SingEwp
