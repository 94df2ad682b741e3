import SingEwp.LengthFramer

/-!
# Cover pads and their timing

`SendCoverPad` hands the caller's pad length to `sendFrame`, which sizes the send
buffer with it before the encoder looks at it; the encoder refuses a length that
its comment says is clamped.  `nextDelay` of `coverLoop` jitters the interval by
a draw of 31 bits, so a span of more than about two seconds is not covered.
-/

namespace SingEwp

/-! ## The pad length -/

/-- The size `make` is asked for when the send buffer is too small. -/
def SecureStream.sendBufRequest (s : SecureStream) (total : ℤ) : Option ℤ :=
  if (s.sendBufCap : ℤ) < total then some total else none

/-- The pad `sendFrame` settles on for a cover frame. -/
def coverPad (s : SecureStream) (padLen : ℤ) (env : StreamEnv) : ℤ :=
  framePad s (rawWireLen 0 0) padLen env.bucket

/-- One frame of cover, within the limits, whatever the caller asked for. -/
structure ClampsCoverPad (P : Primitives) (supply : ℕ → StreamEnv)
    (s : SecureStream) (padLen : ℤ) : Prop where
  no_panic : ((sendCoverPad P padLen).exec supply s).1 ≠ .panic
  request_le : ∀ size,
    s.sendBufRequest (toInt64 (rawWireLen 0 0 + coverPad s padLen (supply 1))) =
      some size → size ≤ 33 + maxFramePad
  one_frame : ∃ fr : Frame, fr.type = framePaddingOnly ∧
    ((sendCoverPad P padLen).exec supply s).2.1.handed =
      s.handed ++ [⟨fr.type, fr.metaBytes, fr.payload, fr.wire P s.send⟩] ∧
    (supply 1).sendMessage (fr.wire P s.send) = none ∧
    (0 ≤ padLen → (fr.pad.length : ℤ) = min padLen maxFramePad)

section CoverPad

variable {P : Primitives} {supply : ℕ → StreamEnv} {s : SecureStream} {padLen : ℤ}

theorem coverPad_of_nonneg (hnonneg : 0 ≤ padLen) (s : SecureStream)
    (env : StreamEnv) : coverPad s padLen env = padLen := by
  rw [coverPad, framePad, if_neg (not_lt.mpr hnonneg)]

theorem coverPad_le_iff (s : SecureStream) (padLen : ℤ) (env : StreamEnv) :
    coverPad s padLen env ≤ maxFramePad ↔ padLen ≤ maxFramePad := by
  by_cases hauto : padLen < 0
  · exact iff_of_true (framePad_auto hauto s (rawWireLen 0 0) env.bucket).le_max
      (by simp; omega)
  · rw [coverPad_of_nonneg (not_lt.mp hauto)]

/-- A cover frame is encoded exactly if its pad is within the limit and drawn. -/
theorem coverPad_encoded_iff {env : StreamEnv} :
    (∃ w f', encodeFrameAppend P [] s.send framePaddingOnly [] []
        (coverPad s padLen env) env.pad = .ok (w, f')) ↔
      padLen ≤ maxFramePad ∧
        drawPad env.pad (coverPad s padLen env).toNat ≠ none := by
  rw [encodeFrameAppend_ok_iff, coverPad_le_iff]
  constructor
  · rintro ⟨-, -, hpad, -, hdraw⟩
    exact ⟨hpad, hdraw⟩
  · rintro ⟨hpad, hdraw⟩
    have hle := (coverPad_le_iff s padLen env).mpr hpad
    refine ⟨rfl, by simp, hpad, ?_, hdraw⟩
    simp [bareFrameLen] at hle ⊢
    omega

theorem sendCoverPad_unencoded
    (hopen : s.closed = false)
    (hnot : ∀ w f', encodeFrameAppend P [] s.send framePaddingOnly [] []
      (coverPad s padLen (supply 1)) (supply 1).pad ≠ .ok (w, f')) :
    ((sendCoverPad P padLen).exec supply s).2.1.handed = s.handed := by
  generalize hlocked :
    sendFrameLocked P framePaddingOnly [] [] padLen (supply 1) s = r
  obtain ⟨outcome, s'⟩ := r
  rw [sendCoverPad, sendFrame_exec hopen hlocked]
  obtain ⟨cap, hcap⟩ := growSendBuf_eq s
    (toInt64 (rawWireLen 0 0 + coverPad s padLen (supply 1)))
  unfold sendFrameLocked at hlocked
  simp only [List.length_nil] at hlocked
  rw [← coverPad, hcap] at hlocked
  split at hlocked
  · rw [← (Prod.mk.inj hlocked).2]
  · split at hlocked
    · rw [← (Prod.mk.inj hlocked).2]
    · rename_i w f' henc
      exact absurd henc (hnot w f')

theorem sendCoverPad_refused
    (hopen : s.closed = false) (hbeyond : (maxFramePad : ℤ) < padLen)
    (halloc : Allocates s (rawWireLen 0 0 + padLen)) :
    ((sendCoverPad P padLen).exec supply s).1 =
      .error (.encodeFrame framePaddingOnly.code .padTooLarge) := by
  have hgranted := mt not_allocates_iff.mpr (not_not.mpr halloc)
  generalize hlocked :
    sendFrameLocked P framePaddingOnly [] [] padLen (supply 1) s = r
  obtain ⟨outcome, s'⟩ := r
  rw [sendCoverPad, sendFrame_exec hopen hlocked]
  have hpad := coverPad_of_nonneg (by omega : 0 ≤ padLen) s (supply 1)
  unfold sendFrameLocked at hlocked
  simp only [List.length_nil] at hlocked
  rw [← coverPad, hpad, if_neg hgranted,
    encodeFrameAppend_beyond rfl (by simp) hbeyond] at hlocked
  exact (Prod.mk.inj hlocked).1.symm

theorem sendCoverPad_panics
    (hopen : s.closed = false) (hnonneg : 0 ≤ padLen)
    (halloc : ¬Allocates s (rawWireLen 0 0 + padLen)) :
    ((sendCoverPad P padLen).exec supply s).1 = .panic := by
  have hpad : framePad s (rawWireLen ([] : Bytes).length ([] : Bytes).length)
      padLen (supply 1).bucket = padLen :=
    coverPad_of_nonneg hnonneg s (supply 1)
  rw [sendCoverPad, sendFrame_exec hopen (sendFrameLocked_panics hpad halloc)]

theorem coverPad_sent
    (hopen : s.closed = false)
    (hworks : ∀ w : Bytes, w.length ≤ maxFrameSize →
      (supply 1).sendMessage w = none)
    (hpad : padLen ≤ maxFramePad)
    (hdraw : drawPad (supply 1).pad (coverPad s padLen (supply 1)).toNat ≠ none) :
    ClampsCoverPad P supply s padLen := by
  obtain ⟨w, f', henc⟩ := coverPad_encoded_iff.mpr ⟨hpad, hdraw⟩
  have hnonneg : 0 ≤ coverPad s padLen (supply 1) := framePad_nonneg _ _ _ _
  have hle := (coverPad_le_iff s padLen (supply 1)).mpr hpad
  have hlen := encodeFrameAppend_length henc
  have hsmall : (rawWireLen 0 0 : ℤ) + coverPad s padLen (supply 1) ≤
      33 + maxFramePad := by
    have hraw : (rawWireLen 0 0 : ℤ) = 33 := rfl
    omega
  have htaken : (supply 1).sendMessage w = none := by
    apply hworks
    simp only [List.length_nil] at hlen
    simp only [maxFrameSize, maxFramePad] at hsmall ⊢
    omega
  have halloc : Allocates s (rawWireLen 0 0 + coverPad s padLen (supply 1)) := by
    apply allocates_of_le (by omega)
    simp only [maxFrameSize, maxFramePad] at hsmall ⊢
    omega
  have hsettled : framePad s
      (rawWireLen ([] : Bytes).length ([] : Bytes).length) padLen
      (supply 1).bucket = coverPad s padLen (supply 1) := rfl
  obtain ⟨s', hlocked, -, hhanded, -⟩ :=
    sendFrameLocked_taken hsettled halloc henc htaken
  have hexec := sendFrame_exec hopen hlocked
  obtain ⟨fr, htype, hmeta, hpayload, hpadLen, hw, -⟩ := encodeFrameAppend_ok henc
  rw [List.nil_append] at hw
  constructor
  · rw [sendCoverPad, hexec]
    simp
  · intro size hsize
    have hint : toInt64 (rawWireLen 0 0 + coverPad s padLen (supply 1)) =
        rawWireLen 0 0 + coverPad s padLen (supply 1) := by
      apply toInt64_of_small (by omega)
      simp only [maxFramePad] at hsmall
      omega
    unfold SecureStream.sendBufRequest at hsize
    split at hsize
    · rw [← Option.some.inj hsize, hint]
      exact hsmall
    · simp at hsize
  · refine ⟨fr, htype, ?_, hw ▸ htaken, ?_⟩
    · rw [sendCoverPad, hexec, htype, hmeta, hpayload, ← hw]
      exact hhanded
    · intro hpos
      rw [hpadLen, coverPad_of_nonneg hpos, min_eq_left hpad]
      exact Int.toNat_of_nonneg hpos

/-- On an open stream over a transport that takes every message of up to
`MaxFrameSize` bytes, the pad is clamped exactly if nothing is to clamp: a request
beyond the limit is an error, or ends in a panic once the buffer is beyond what
`make` grants.  The random source must serve the pad. -/
theorem cover_pad_clamped_iff
    (P : Primitives) (supply : ℕ → StreamEnv) (s : SecureStream) (padLen : ℤ)
    (hopen : s.closed = false)
    (hworks : ∀ k (w : Bytes), w.length ≤ maxFrameSize →
      (supply k).sendMessage w = none) :
    ClampsCoverPad P supply s padLen ↔
      padLen ≤ maxFramePad ∧
        drawPad (supply 1).pad (coverPad s padLen (supply 1)).toNat ≠ none := by
  constructor
  · intro hclamps
    obtain ⟨fr, -, hhanded, -, -⟩ := hclamps.one_frame
    rw [← coverPad_encoded_iff (P := P)]
    by_contra hnot
    simp only [not_exists] at hnot
    rw [sendCoverPad_unencoded hopen hnot] at hhanded
    simp at hhanded
  · rintro ⟨hpad, hdraw⟩
    exact coverPad_sent hopen (hworks 1) hpad hdraw

end CoverPad

theorem cover_pad_clamped_at_limit :
    ClampsCoverPad Transparent.suite (fun _ => Transparent.framerEnv)
      (newClientSecureStream Transparent.keys) 4096 :=
  (cover_pad_clamped_iff Transparent.suite (fun _ => Transparent.framerEnv)
    (newClientSecureStream Transparent.keys) 4096 rfl
    (fun _ w hlen => (framerAccept_none_iff w).mpr hlen)).mpr
    ⟨by simp, drawPad_ne_none (fun _ => Option.some_ne_none _) _⟩

/-- One byte beyond the limit no frame is sent, and a huge request panics. -/
theorem cover_pad_not_clamped :
    let s := newClientSecureStream Transparent.keys
    let supply := fun _ : ℕ => Transparent.framerEnv
    ((sendCoverPad Transparent.suite 4097).exec supply s).1 =
        .error (.encodeFrame framePaddingOnly.code .padTooLarge) ∧
      ¬ClampsCoverPad Transparent.suite supply s 4097 ∧
      ((sendCoverPad Transparent.suite (2 ^ 62)).exec supply s).1 = .panic := by
  intro s supply
  have hbeyond : (maxFramePad : ℤ) < 4097 := by simp
  refine ⟨?_, ?_, ?_⟩
  · exact sendCoverPad_refused rfl hbeyond (Or.inr (by decide))
  · intro hclamps
    obtain ⟨fr, -, hhanded, -⟩ := hclamps.one_frame
    rw [sendCoverPad_unencoded rfl] at hhanded
    · simp at hhanded
    · intro w f'
      rw [coverPad_of_nonneg (by omega),
        encodeFrameAppend_beyond rfl (by simp) hbeyond]
      simp
  · apply sendCoverPad_panics rfl (by omega)
    rw [not_allocates_iff]
    decide

/-! ## The delay between cover frames -/

/-- What `coverLoop` needs of `float64`.  Nothing is assumed of rounding,
infinities and NaNs; a conversion gives some 64-bit integer. -/
structure FloatArith where
  Value : Type
  ofInt : ℤ → Value
  mul : Value → Value → Value
  /-- `x <= 0`, false for a NaN. -/
  nonpos : Value → Bool
  /-- `int(x)`. -/
  trunc : Value → ℤ
  trunc_lt : ∀ x, trunc x < 2 ^ 63

/-- The fields of `CoverConfig` that the delay depends on. -/
structure CoverConfig (A : FloatArith) where
  /-- A `time.Duration`, in nanoseconds. -/
  interval : ℤ
  jitterFrac : A.Value
  interval_lt : interval < 2 ^ 63

namespace CoverConfig

variable {A : FloatArith} (cfg : CoverConfig A)

def spanNs : ℤ :=
  A.trunc (A.mul (A.mul (A.ofInt cfg.interval) cfg.jitterFrac) (A.ofInt 2))

/-- The closure `nextDelay` of `coverLoop`. -/
def nextDelay (draw : RandRead) : ℤ :=
  if A.nonpos cfg.jitterFrac then cfg.interval
  else if cfg.spanNs < 1 then cfg.interval
  else
    let offset := toInt64 (secureRandIntn cfg.spanNs draw - Int.tdiv cfg.spanNs 2)
    toInt64 (cfg.interval + offset)

/-- The lower end of the jittered range. -/
def earliest : ℤ := cfg.interval - Int.tdiv cfg.spanNs 2

/-- The delays are those of the range, from `earliest` over `spanNs`. -/
def DelaysCoverRange : Prop :=
  ∀ d, (∃ draw, cfg.nextDelay draw = d) ↔
    cfg.earliest ≤ d ∧ d < cfg.earliest + cfg.spanNs

end CoverConfig

/-- `secureRandIntn n` takes the values of `[0, n)`. -/
def DrawsCoverRange (n : ℤ) : Prop :=
  ∀ v, (∃ draw, secureRandIntn n draw = v) ↔ 0 ≤ v ∧ v < n

/-- The draw is masked to 31 bits before it is reduced. -/
theorem exists_secureRandIntn_iff {n : ℤ} (hn : 1 ≤ n) (v : ℤ) :
    (∃ draw, secureRandIntn n draw = v) ↔ 0 ≤ v ∧ v < n ∧ v < 2 ^ 31 := by
  constructor
  · rintro ⟨draw, rfl⟩
    refine ⟨secureRandIntn_nonneg n draw, secureRandIntn_lt (by omega) draw, ?_⟩
    unfold secureRandIntn
    split
    · norm_num
    split
    · norm_num
    · rename_i b _
      have hmask : getBE b.val &&& 0x7fffffff < 2 ^ 31 :=
        Nat.and_lt_two_pow _ (by norm_num)
      generalize getBE b.val &&& 0x7fffffff = masked at hmask ⊢
      lift n to ℕ using (by omega)
      have hle : (masked : ℤ) % n ≤ masked := by
        exact_mod_cast Nat.mod_le masked n
      omega
  · rintro ⟨hnonneg, hlt, hbits⟩
    by_cases hone : n ≤ 1
    · refine ⟨fun _ => none, ?_⟩
      rw [secureRandIntn, if_pos hone]
      omega
    · lift v to ℕ using hnonneg
      have hsmall : v < 2 ^ 31 := by omega
      have hread : getBE (FixedBytes.copyFrom 4 (putBE 4 v)).val = v := by
        rw [FixedBytes.copyFrom_val_of_length (putBE_length 4 v)]
        exact getBE_putBE_of_lt (by omega)
      have hmask : v &&& 0x7fffffff = v := by
        rw [Nat.and_two_pow_sub_one_of_lt_two_pow (n := 31) hsmall]
      refine ⟨fun width => some (FixedBytes.copyFrom width (putBE 4 v)), ?_⟩
      rw [secureRandIntn, if_neg hone]
      dsimp only
      rw [hread, hmask]
      exact Int.emod_eq_of_lt (by omega) hlt

theorem drawsCoverRange_iff {n : ℤ} (hn : 1 ≤ n) :
    DrawsCoverRange n ↔ n ≤ 2 ^ 31 := by
  unfold DrawsCoverRange
  simp only [exists_secureRandIntn_iff hn]
  constructor
  · intro hcover
    have hlast := (hcover (n - 1)).mpr ⟨by omega, by omega⟩
    omega
  · intro hspan v
    omega

section Delay

variable {A : FloatArith} {cfg : CoverConfig A}

theorem nextDelay_eq
    (hjitter : A.nonpos cfg.jitterFrac = false) (hspan : 1 ≤ cfg.spanNs)
    (draw : RandRead) :
    cfg.nextDelay draw =
      toInt64 (cfg.earliest + secureRandIntn cfg.spanNs draw) := by
  have hlt : cfg.spanNs < 2 ^ 63 := A.trunc_lt _
  have hnonneg := secureRandIntn_nonneg cfg.spanNs draw
  have hdraw : secureRandIntn cfg.spanNs draw < cfg.spanNs :=
    secureRandIntn_lt (by omega) draw
  have hhalf : Int.tdiv cfg.spanNs 2 = cfg.spanNs / 2 :=
    Int.tdiv_eq_ediv_of_nonneg (by omega)
  have hoffset :
      toInt64 (secureRandIntn cfg.spanNs draw - Int.tdiv cfg.spanNs 2) =
        secureRandIntn cfg.spanNs draw - Int.tdiv cfg.spanNs 2 :=
    toInt64_of_range (by omega) (by omega)
  unfold CoverConfig.nextDelay CoverConfig.earliest
  rw [hjitter, if_neg (by simp), if_neg (by omega)]
  dsimp only
  rw [hoffset]
  congr 1
  omega

theorem exists_nextDelay_iff
    (hjitter : A.nonpos cfg.jitterFrac = false) (hspan : 1 ≤ cfg.spanNs) (d : ℤ) :
    (∃ draw, cfg.nextDelay draw = d) ↔
      ∃ r, (0 ≤ r ∧ r < cfg.spanNs ∧ r < 2 ^ 31) ∧
        toInt64 (cfg.earliest + r) = d := by
  simp only [nextDelay_eq hjitter hspan, ← exists_secureRandIntn_iff hspan]
  constructor
  · rintro ⟨draw, hdelay⟩
    exact ⟨_, ⟨draw, rfl⟩, hdelay⟩
  · rintro ⟨r, ⟨draw, rfl⟩, hdelay⟩
    exact ⟨draw, hdelay⟩

/-- The range is covered if the draw reaches its end and the sum does not
overflow. -/
theorem delaysCoverRange_iff
    (hint : 0 < cfg.interval) (hjitter : A.nonpos cfg.jitterFrac = false)
    (hspan : 1 ≤ cfg.spanNs) :
    cfg.DelaysCoverRange ↔
      cfg.spanNs ≤ 2 ^ 31 ∧ cfg.earliest + cfg.spanNs ≤ 2 ^ 63 := by
  have hlt : cfg.spanNs < 2 ^ 63 := A.trunc_lt _
  have hlow : -2 ^ 63 ≤ cfg.earliest := by
    have hhalf : Int.tdiv cfg.spanNs 2 = cfg.spanNs / 2 :=
      Int.tdiv_eq_ediv_of_nonneg (by omega)
    unfold CoverConfig.earliest
    omega
  unfold CoverConfig.DelaysCoverRange
  simp only [exists_nextDelay_iff hjitter hspan]
  generalize cfg.earliest = low at hlow ⊢
  generalize cfg.spanNs = span at hspan hlt ⊢
  constructor
  · intro hcover
    obtain ⟨_, -, hend⟩ := (hcover (low + span - 1)).mpr ⟨by omega, by omega⟩
    have hfits : low + span - 1 < 2 ^ 63 := hend ▸ toInt64_lt _
    refine ⟨?_, by omega⟩
    by_contra hwide
    -- the first value beyond the reach of the draw
    obtain ⟨r, ⟨hr, hrspan, hreach⟩, hdelay⟩ :=
      (hcover (low + 2 ^ 31)).mpr ⟨by omega, by omega⟩
    rw [toInt64_of_range (by omega) (by omega)] at hdelay
    omega
  · rintro ⟨hreach, hfits⟩ d
    constructor
    · rintro ⟨r, ⟨hr, hrspan, -⟩, rfl⟩
      rw [toInt64_of_range (by omega) (by omega)]
      omega
    · rintro ⟨hge, hbelow⟩
      refine ⟨d - low, ⟨by omega, by omega, by omega⟩, ?_⟩
      rw [add_sub_cancel, toInt64_of_range (by omega) (by omega)]

end Delay

/-- `secureRandIntn n` takes every value below `n` exactly if `n` is at most
`2^31`; correspondingly the delays of `coverLoop` fill their range exactly if the
span is at most `2^31` nanoseconds and its end is a `time.Duration`. -/
theorem cover_jitter_range_iff (n : ℤ) (A : FloatArith) (cfg : CoverConfig A) :
    (1 ≤ n → (DrawsCoverRange n ↔ n ≤ 2 ^ 31)) ∧
      (0 < cfg.interval → A.nonpos cfg.jitterFrac = false → 1 ≤ cfg.spanNs →
        (cfg.DelaysCoverRange ↔
          cfg.spanNs ≤ 2 ^ 31 ∧ cfg.earliest + cfg.spanNs ≤ 2 ^ 63)) :=
  ⟨drawsCoverRange_iff, delaysCoverRange_iff⟩

/-- Arithmetic without rounding; on the two configurations below `float64` does
not round either. -/
def exactArith : FloatArith where
  Value := ℚ
  ofInt := fun x => x
  mul := fun x y => x * y
  nonpos := fun x => decide (x ≤ 0)
  trunc := fun x => toInt64 (Int.tdiv x.num x.den)
  trunc_lt := fun _ => toInt64_lt _

/-- An interval with the jitter of `DefaultCoverConfig`. -/
def halfJitter (interval : ℤ) (hlt : interval < 2 ^ 63) :
    CoverConfig exactArith where
  interval := interval
  jitterFrac := (1 / 2 : ℚ)
  interval_lt := hlt

theorem halfJitter_spanNs
    {interval : ℤ} (hlt : interval < 2 ^ 63) (hpos : 0 < interval) :
    (halfJitter interval hlt).spanNs = interval := by
  have hexact : (interval : ℚ) * (1 / 2) * (2 : ℤ) = interval := by
    push_cast
    ring
  change toInt64 (Int.tdiv ((interval : ℚ) * (1 / 2) * (2 : ℤ)).num
    ((interval : ℚ) * (1 / 2) * (2 : ℤ)).den) = interval
  rw [hexact, Rat.num_intCast, Rat.den_intCast, Nat.cast_one, Int.tdiv_one]
  exact toInt64_of_range (by omega) hlt

theorem halfJitter_nonpos {interval : ℤ} (hlt : interval < 2 ^ 63) :
    exactArith.nonpos (halfJitter interval hlt).jitterFrac = false := by
  change decide ((1 / 2 : ℚ) ≤ 0) = false
  norm_num

/-- The intervals of `DefaultCoverConfig`. -/
theorem cover_jitter_range_default :
    ∃ hlt : (500000000 : ℤ) < 2 ^ 63,
      DrawsCoverRange 500000000 ∧ (halfJitter 500000000 hlt).DelaysCoverRange := by
  have hlt : (500000000 : ℤ) < 2 ^ 63 := by norm_num
  have hinterval : (halfJitter 500000000 hlt).interval = 500000000 := rfl
  have hspan := halfJitter_spanNs hlt (by norm_num)
  obtain ⟨hdraws, hdelays⟩ :=
    cover_jitter_range_iff 500000000 exactArith (halfJitter 500000000 hlt)
  refine ⟨hlt, (hdraws (by norm_num)).mpr (by norm_num),
    (hdelays (by rw [hinterval]; norm_num) (halfJitter_nonpos hlt)
      (by rw [hspan]; norm_num)).mpr ?_⟩
  rw [CoverConfig.earliest, hspan, hinterval]
  decide

/-- With an interval of five seconds and half of it as jitter the last delay of
the range, one nanosecond below 7.5 s, is never drawn. -/
theorem cover_jitter_five_seconds :
    ∃ hlt : (5000000000 : ℤ) < 2 ^ 63,
      let cfg := halfJitter 5000000000 hlt
      cfg.spanNs = 5000000000 ∧
        (cfg.earliest ≤ 7499999999 ∧ 7499999999 < cfg.earliest + cfg.spanNs) ∧
        (∀ draw, cfg.nextDelay draw ≠ 7499999999) ∧
        ¬cfg.DelaysCoverRange ∧ ¬DrawsCoverRange cfg.spanNs := by
  refine ⟨by norm_num, ?_⟩
  intro cfg
  have hspan : cfg.spanNs = 5000000000 :=
    halfJitter_spanNs (by norm_num) (by norm_num)
  have hjitter : exactArith.nonpos cfg.jitterFrac = false := halfJitter_nonpos _
  have hearliest : cfg.earliest = 2500000000 := by
    rw [CoverConfig.earliest, hspan]
    rfl
  have hnever : ∀ draw, cfg.nextDelay draw ≠ 7499999999 := by
    intro draw hdraw
    obtain ⟨r, ⟨hr, -, hreach⟩, hdelay⟩ :=
      (exists_nextDelay_iff hjitter (by omega) _).mp ⟨draw, hdraw⟩
    rw [hearliest, toInt64_of_range (by omega) (by omega)] at hdelay
    omega
  have hin : cfg.earliest ≤ 7499999999 ∧
      7499999999 < cfg.earliest + cfg.spanNs := by
    rw [hearliest, hspan]
    norm_num
  refine ⟨hspan, hin, hnever, ?_, ?_⟩
  · intro hcover
    obtain ⟨draw, hdraw⟩ := (hcover 7499999999).mpr hin
    exact hnever draw hdraw
  · rw [drawsCoverRange_iff (by omega), hspan]
    norm_num

end SingEwp
