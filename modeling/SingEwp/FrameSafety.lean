import SingEwp.Frame

/-!
# `DecodeFrame` on arbitrary input

Every length in a frame header comes from a peer that has not been
authenticated yet.  `decodeFrameChecked` is `DecodeFrame` once more, with what
Go does partially made explicit: a slice expression out of range and a `make`
of a negative or unavailable length panic.  The receiver's counter is a cell
that is assigned to, and the lengths passed to `make` are recorded.  It never
panics and computes what `decodeFrame` computes.

The last section asks where `DecodeFrame` leaves the stream.  A header that is
refused for its lengths is refused before the rest of its frame is read, so the
next read starts inside that frame, or behind its end if it is shorter than a
header.
-/

namespace SingEwp

structure DecodeState where
  reader : Bytes
  recv : FrameAEAD
  /-- The lengths passed to `make`, in order. -/
  made : List ℤ
  /-- Whether `len(plain) < int(metaLen)` has been found true. -/
  shortPlain : Bool

structure Decoding (α : Type) where
  run : DecodeState → Outcome EwpError α × DecodeState

namespace Decoding

variable {α β : Type}

instance : Monad Decoding where
  pure a := ⟨fun s => (.ok a, s)⟩
  bind m k := ⟨fun s =>
    match m.run s with
    | (.ok a, s) => (k a).run s
    | (.error e, s) => (.error e, s)
    | (.panic, s) => (.panic, s)⟩

def fail (e : EwpError) : Decoding α := ⟨fun s => (.error e, s)⟩

/-- `if c { return nil, e }`. -/
def rejectIf (c : Prop) [Decidable c] (e : EwpError) : Decoding Unit :=
  ⟨fun s => if c then (.error e, s) else (.ok (), s)⟩

/-- `b[lo:hi]`. -/
def sliceAt (b : Bytes) (lo hi : ℤ) : Decoding Bytes :=
  ⟨fun s =>
    if 0 ≤ lo ∧ lo ≤ hi ∧ hi ≤ b.length then
      (.ok (slice b lo.toNat hi.toNat), s)
    else (.panic, s)⟩

/-- `b[i]`. -/
def byteAt (b : Bytes) (i : ℕ) : Decoding UInt8 :=
  ⟨fun s => if i < b.length then (.ok (b.getD i 0), s) else (.panic, s)⟩

/-- `make([]byte, n)`. -/
def makeBytes (n : ℤ) : Decoding Bytes :=
  ⟨fun s =>
    if 0 ≤ n ∧ n ≤ maxAlloc then
      (.ok (List.replicate n.toNat 0), { s with made := s.made ++ [n] })
    else (.panic, s)⟩

/-- `io.ReadFull(r, buf)`, with the filled buffer as its value. -/
def fill (buf : Bytes) : Decoding Bytes :=
  ⟨fun s =>
    match readFull buf.length s.reader with
    | (.error e, r) => (.error (.io e), { s with reader := r })
    | (.ok b, r) => (.ok b, { s with reader := r })⟩

/-- `io.CopyN(io.Discard, r, n)` for the pad, skipped when there is none. -/
def drain (n : ℕ) : Decoding Unit :=
  ⟨fun s =>
    match if 0 < n then discardN n s.reader else (.ok (), s.reader) with
    | (.error e, r) => (.error (.io e), { s with reader := r })
    | (.ok (), r) => (.ok (), { s with reader := r })⟩

def getRecv : Decoding FrameAEAD := ⟨fun s => (.ok s.recv, s)⟩

def setCounter (counter : UInt64) : Decoding Unit :=
  ⟨fun s => (.ok (), { s with recv := { s.recv with counter := counter } })⟩

/-- The comparison `len(plain) < int(metaLen)`, with a note of its outcome. -/
def rejectShortPlain (plain : Bytes) (metaLen : ℕ) : Decoding Unit :=
  ⟨fun s =>
    if plain.length < metaLen then
      (.error .frameTooShort, { s with shortPlain := true })
    else (.ok (), s)⟩

end Decoding

open Decoding in
/-- The end of `DecodeFrame`, from the counter comparison on. -/
def openFrameChecked (P : Primitives) (hdr : Bytes) (counter : UInt64)
    (t : FrameType) (metaLen : ℕ) (cipherBuf : Bytes) :
    Decoding DecodedFrame := do
  let f ← getRecv
  rejectIf (counter ≠ f.counter) .counterMismatch
  rejectIf (!t.valid) .frameType
  match P.aeadOpen f.key (f.composeNonce counter) cipherBuf hdr with
  | none => fail .aeadOpen
  | some plain =>
      rejectShortPlain plain metaLen
      let metaBytes ← sliceAt plain 0 metaLen
      let payload ← sliceAt plain metaLen plain.length
      setCounter (counter + 1)
      return {
        counter := counter
        type := t
        metaBytes := appendToNil metaBytes
        payload := appendToNil payload }

open Decoding in
/-- The ciphertext of a frame, with the pad behind it drained. -/
def readCipherChecked (cipherLen : ℤ) (padLen : ℕ) : Decoding Bytes := do
  let cipherBuf ← makeBytes cipherLen
  let cipherBuf ← fill cipherBuf
  drain padLen
  return cipherBuf

open Decoding in
def decodeFrameChecked (P : Primitives) : Decoding DecodedFrame := do
  let hdr ← fill (List.replicate frameHeaderSize 0)
  let frameLen := getBE (← sliceAt hdr 0 4)
  rejectIf (maxFrameSize < frameLen) .frameTooLarge
  let counter := UInt64.ofNat (getBE (← sliceAt hdr 4 12))
  let t := FrameType.mk (← byteAt hdr 12)
  let metaLen := getBE (← sliceAt hdr 13 15)
  let padLen := getBE (← sliceAt hdr 15 17)
  rejectIf (maxMetaLen < metaLen) .metaTooLarge
  rejectIf (maxFramePad < padLen) .padTooLarge
  let bodyLen : ℤ := frameLen - (8 + 1 + 2 + 2)
  rejectIf (bodyLen < padLen + aeadTagLen + metaLen) .frameTooShort
  let cipherBuf ← readCipherChecked (bodyLen - padLen) padLen
  openFrameChecked P hdr counter t metaLen cipherBuf

def startDecode (r : Bytes) (f : FrameAEAD) : DecodeState where
  reader := r
  recv := f
  made := []
  shortPlain := false

/-- How a call ends whose results are those of `decodeFrame`. -/
def DecodeState.finish (s : DecodeState) :
    Except EwpError (DecodedFrame × FrameAEAD) →
      Outcome EwpError DecodedFrame × DecodeState
  | .error e => (.error e, s)
  | .ok (df, f) => (.ok df, { s with recv := f })

/-! ## The partial operations succeed -/

namespace Decoding

variable {α β : Type} {s : DecodeState}

theorem run_bind_ok
    {m : Decoding α} {k : α → Decoding β} {a : α} {s' : DecodeState}
    (hm : m.run s = (.ok a, s')) : (m >>= k).run s = (k a).run s' := by
  simp only [bind, hm]

theorem run_bind_error
    {m : Decoding α} {k : α → Decoding β} {e : EwpError} {s' : DecodeState}
    (hm : m.run s = (.error e, s')) : (m >>= k).run s = (.error e, s') := by
  simp only [bind, hm]

theorem run_rejectIf_bind
    (c : Prop) [Decidable c] (e : EwpError) (k : Unit → Decoding β) :
    (rejectIf c e >>= k).run s = if c then (.error e, s) else (k ()).run s := by
  by_cases hc : c
  · rw [if_pos hc, run_bind_error (if_pos hc)]
  · rw [if_neg hc, run_bind_ok (if_neg hc)]

theorem sliceAt_ok
    {b : Bytes} {lo hi : ℤ} (hlo : 0 ≤ lo) (hle : lo ≤ hi)
    (hhi : hi ≤ b.length) :
    (sliceAt b lo hi).run s = (.ok (slice b lo.toNat hi.toNat), s) :=
  if_pos ⟨hlo, hle, hhi⟩

theorem byteAt_ok {b : Bytes} {i : ℕ} (hi : i < b.length) :
    (byteAt b i).run s = (.ok (b.getD i 0), s) :=
  if_pos hi

theorem makeBytes_ok {n : ℤ} (hnonneg : 0 ≤ n) (hle : n ≤ maxAlloc) :
    (makeBytes n).run s =
      (.ok (List.replicate n.toNat 0), { s with made := s.made ++ [n] }) :=
  if_pos ⟨hnonneg, hle⟩

theorem fill_error
    {n : ℕ} {e : IoError} {rest : Bytes}
    (hread : readFull n s.reader = (.error e, rest)) :
    (fill (List.replicate n 0)).run s =
      (.error (.io e), { s with reader := rest }) := by
  simp only [fill, List.length_replicate, hread]

theorem fill_ok
    {n : ℕ} {b rest : Bytes} (hread : readFull n s.reader = (.ok b, rest)) :
    (fill (List.replicate n 0)).run s = (.ok b, { s with reader := rest }) := by
  simp only [fill, List.length_replicate, hread]

theorem drain_error
    {n : ℕ} {e : IoError} {rest : Bytes}
    (hdrain : discardN n s.reader = (.error e, rest)) :
    (drain n).run s = (.error (.io e), { s with reader := rest }) := by
  simp only [drain, discardN_guard, hdrain]

theorem drain_ok
    {n : ℕ} {rest : Bytes} (hdrain : discardN n s.reader = (.ok (), rest)) :
    (drain n).run s = (.ok (), { s with reader := rest }) := by
  simp only [drain, discardN_guard, hdrain]

end Decoding

section

variable {P : Primitives}

open Decoding

theorem openFrameChecked_finish
    (hlen : P.OpensToLength) {hdr cipherBuf : Bytes} {s : DecodeState}
    (hfits : hdrMetaLen hdr + aeadTagLen ≤ cipherBuf.length) :
    (openFrameChecked P hdr (hdrCounter hdr) (hdrType hdr) (hdrMetaLen hdr)
        cipherBuf).run s =
      s.finish (openFrame P s.recv hdr cipherBuf) := by
  unfold openFrameChecked openFrame
  rw [run_bind_ok (rfl : getRecv.run s = (.ok s.recv, s)), run_rejectIf_bind]
  dsimp only
  by_cases hcounter : hdrCounter hdr ≠ s.recv.counter
  · rw [if_pos hcounter, if_pos hcounter]
    rfl
  rw [if_neg hcounter, if_neg hcounter, run_rejectIf_bind]
  by_cases htype : (!(hdrType hdr).valid) = true
  · rw [if_pos htype, if_pos htype]
    rfl
  rw [if_neg htype, if_neg htype]
  cases hopen : P.aeadOpen s.recv.key (s.recv.composeNonce (hdrCounter hdr))
      cipherBuf hdr with
  | none => rfl
  | some plain =>
      -- the header check left room for the meta, and opening removes the tag
      have hmeta : hdrMetaLen hdr ≤ plain.length := by
        have := hlen _ _ _ _ _ hopen
        omega
      dsimp only
      rw [if_neg (not_lt.mpr hmeta),
        run_bind_ok (if_neg (not_lt.mpr hmeta) :
          (rejectShortPlain plain (hdrMetaLen hdr)).run s = (.ok (), s)),
        run_bind_ok (sliceAt_ok le_rfl (by omega) (by omega)),
        run_bind_ok (sliceAt_ok (by omega) (by omega) le_rfl)]
      simp [slice, DecodeState.finish, setCounter, bind, pure]

/-- The checked decoder ends as `decodeFrame` does, having asked for no negative
length and for at most a frame's worth of bytes. -/
def Follows (r : Bytes) (f : FrameAEAD)
    (out : Outcome EwpError DecodedFrame × DecodeState)
    (ref : Except EwpError (DecodedFrame × FrameAEAD) × Bytes) : Prop :=
  ∃ made : List ℤ, (∀ n ∈ made, 0 ≤ n) ∧ made.sum ≤ maxFrameSize ∧
    out = DecodeState.finish
      { startDecode r f with reader := ref.2, made := made } ref.1

theorem Follows.rejected (r : Bytes) (f : FrameAEAD) (e : EwpError) (rest : Bytes) :
    Follows r f (.error e, { startDecode r f with reader := rest })
      (.error e, rest) :=
  ⟨[], by simp, by simp, rfl⟩

theorem Follows.ite
    {r : Bytes} {f : FrameAEAD} {c : Prop} [Decidable c]
    {out out' : Outcome EwpError DecodedFrame × DecodeState}
    {ref ref' : Except EwpError (DecodedFrame × FrameAEAD) × Bytes}
    (hthen : c → Follows r f out ref) (helse : ¬c → Follows r f out' ref') :
    Follows r f (if c then out else out') (if c then ref else ref') := by
  by_cases hc : c
  · simpa only [if_pos hc] using hthen hc
  · simpa only [if_neg hc] using helse hc

theorem hdrCipherLen_bounds
    {hdr : Bytes} (hlarge : hdrFrameLen hdr ≤ maxFrameSize)
    (hbody : (hdrPadLen hdr : ℤ) + aeadTagLen + hdrMetaLen hdr ≤
      hdrBodyLen hdr) :
    hdrBodyLen hdr - hdrPadLen hdr = hdrCipherLen hdr ∧
      hdrCipherLen hdr ≤ maxFrameSize ∧
      hdrMetaLen hdr + aeadTagLen ≤ hdrCipherLen hdr := by
  have hdef : hdrBodyLen hdr = hdrFrameLen hdr - (8 + 1 + 2 + 2) := rfl
  rw [hdrCipherLen]
  simp only [aeadTagLen, maxFrameSize] at hbody hlarge ⊢
  omega

section Cipher

variable {n padLen : ℕ} {s : DecodeState} {after : Bytes}

theorem makeBytes_fill
    {β : Type} {k : Bytes → Decoding β} (hn : n ≤ maxAlloc) :
    (makeBytes n >>= fun buf => fill buf >>= k).run s =
      (fill (List.replicate n 0) >>= k).run
        { s with made := s.made ++ [(n : ℤ)] } := by
  rw [run_bind_ok (makeBytes_ok (Int.natCast_nonneg n) (by exact_mod_cast hn)),
    Int.toNat_natCast]

theorem readCipherChecked_truncated
    {e : IoError} (hn : n ≤ maxAlloc)
    (hread : readFull n s.reader = (.error e, after)) :
    (readCipherChecked n padLen).run s =
      (.error (.io e), { s with reader := after, made := s.made ++ [(n : ℤ)] }) := by
  unfold readCipherChecked
  rw [makeBytes_fill hn]
  exact run_bind_error (fill_error hread)

theorem readCipherChecked_drain
    {cipherBuf : Bytes} (hn : n ≤ maxAlloc)
    (hread : readFull n s.reader = (.ok cipherBuf, after)) :
    (readCipherChecked n padLen).run s =
      (drain padLen >>= fun _ => pure cipherBuf).run
        { s with reader := after, made := s.made ++ [(n : ℤ)] } := by
  unfold readCipherChecked
  rw [makeBytes_fill hn]
  exact run_bind_ok (fill_ok hread)

end Cipher

theorem Follows.stopped
    {r : Bytes} {f : FrameAEAD} {n : ℕ} (hn : n ≤ maxFrameSize)
    (ref : Except EwpError (DecodedFrame × FrameAEAD) × Bytes) :
    Follows r f
      (DecodeState.finish
        { startDecode r f with reader := ref.2, made := [(n : ℤ)] } ref.1)
      ref :=
  ⟨[(n : ℤ)], by simp, by simpa using hn, rfl⟩

theorem decodeFrameChecked_follows
    (hlen : P.OpensToLength) (r : Bytes) (f : FrameAEAD) :
    Follows r f ((decodeFrameChecked P).run (startDecode r f))
      (decodeFrame P r f) := by
  unfold decodeFrameChecked decodeFrame
  cases hread : readFull frameHeaderSize r with
  | mk first body =>
      cases first with
      | error e =>
          rw [run_bind_error (fill_error hread)]
          exact Follows.rejected r f (.io e) body
      | ok hdr =>
          have hhdr : hdr.length = frameHeaderSize := (readFull_ok hread).1
          have hslice : ∀ (lo hi : ℤ) (s : DecodeState), 0 ≤ lo → lo ≤ hi →
              hi ≤ 17 →
              (sliceAt hdr lo hi).run s =
                (.ok (slice hdr lo.toNat hi.toNat), s) := by
            intro lo hi s hlo hle hhi
            exact sliceAt_ok hlo hle (by rw [hhdr]; exact hhi)
          rw [run_bind_ok (fill_ok hread), run_bind_ok (hslice 0 4 _ (by decide)
            (by decide) (by decide)), run_rejectIf_bind]
          refine Follows.ite (fun _ => Follows.rejected r f _ body)
            fun hlarge => ?_
          rw [run_bind_ok (hslice 4 12 _ (by decide) (by decide) (by decide)),
            run_bind_ok (byteAt_ok (by rw [hhdr]; decide)),
            run_bind_ok (hslice 13 15 _ (by decide) (by decide) (by decide)),
            run_bind_ok (hslice 15 17 _ (by decide) (by decide) (by decide)),
            run_rejectIf_bind]
          refine Follows.ite (fun _ => Follows.rejected r f _ body)
            fun hmeta => ?_
          rw [run_rejectIf_bind]
          refine Follows.ite (fun _ => Follows.rejected r f _ body)
            fun hpad => ?_
          rw [run_rejectIf_bind]
          refine Follows.ite (fun _ => Follows.rejected r f _ body)
            fun hbody => ?_
          obtain ⟨hn, hsmall, hroom⟩ :=
            hdrCipherLen_bounds (not_lt.mp hlarge) (not_lt.mp hbody)
          have halloc : hdrCipherLen hdr ≤ maxAlloc :=
            hsmall.trans (by decide)
          change Follows r f
            ((readCipherChecked (hdrBodyLen hdr - hdrPadLen hdr) (hdrPadLen hdr) >>=
              openFrameChecked P hdr (hdrCounter hdr) (hdrType hdr)
                (hdrMetaLen hdr)).run { startDecode r f with reader := body }) _
          rw [hn]
          cases hcipher : readFull (hdrCipherLen hdr) body with
          | mk second after =>
              cases second with
              | error e =>
                  rw [run_bind_error (readCipherChecked_truncated halloc hcipher)]
                  exact Follows.stopped hsmall (.error (.io e), after)
              | ok cipherBuf =>
                  have hcipherLen := (readFull_ok hcipher).1
                  have hread : (readCipherChecked (hdrCipherLen hdr)
                      (hdrPadLen hdr)).run
                        { startDecode r f with reader := body } = _ :=
                    readCipherChecked_drain halloc hcipher
                  dsimp only
                  rw [discardN_guard]
                  cases hdrain : discardN (hdrPadLen hdr) after with
                  | mk third rest =>
                      cases third with
                      | error e =>
                          rw [run_bind_error
                            (hread.trans (run_bind_error (drain_error hdrain)))]
                          exact Follows.stopped hsmall (.error (.io e), rest)
                      | ok _ =>
                          rw [run_bind_ok
                              (hread.trans (run_bind_ok (drain_ok hdrain))),
                            openFrameChecked_finish hlen (by omega)]
                          exact Follows.stopped hsmall
                            (openFrame P f hdr cipherBuf, rest)

/-- `DecodeFrame` never panics, asks for no negative length and for at most
`MaxFrameSize` bytes of ciphertext, never finds an opened plaintext too short,
and moves the counter by one exactly when it succeeds. -/
theorem decodeFrame_safe
    (P : Primitives) (hlen : P.OpensToLength) (r : Bytes) (f : FrameAEAD) :
    ∃ out s, (decodeFrameChecked P).run (startDecode r f) = (out, s) ∧
      out ≠ .panic ∧
      (∀ n ∈ s.made, 0 ≤ n) ∧ s.made.sum ≤ maxFrameSize ∧
      s.shortPlain = false ∧
      (∀ df, out = .ok df →
        s.recv = { f with counter := f.counter + 1 } ∧
          decodeFrame P r f = (.ok (df, s.recv), s.reader)) ∧
      ∀ e, out = .error e →
        s.recv = f ∧ decodeFrame P r f = (.error e, s.reader) := by
  obtain ⟨made, hnonneg, hsum, hrun⟩ := decodeFrameChecked_follows hlen r f
  generalize hdec : decodeFrame P r f = ref at hrun
  obtain ⟨result, rest⟩ := ref
  cases result with
  | error e =>
      refine ⟨_, _, hrun, by simp, hnonneg, hsum, rfl, ?_, ?_⟩
      · intro df hdf
        cases hdf
      · intro e' he'
        cases he'
        exact ⟨rfl, rfl⟩
  | ok value =>
      obtain ⟨df, f'⟩ := value
      refine ⟨_, _, hrun, by simp, hnonneg, hsum, rfl, ?_, ?_⟩
      · intro df' hdf'
        cases hdf'
        obtain ⟨_, _, _, _, hf'⟩ := openFrame_ok (decodeFrame_ok hdec).2
        exact ⟨hf', rfl⟩
      · intro e' he'
        cases he'

end

/-- A header that announces a frame of four gigabytes. -/
theorem decodeFrame_safe_hostile :
    ∃ out s, (decodeFrameChecked Transparent.suite).run
        (startDecode (List.replicate frameHeaderSize 255)
          (newFrameAEAD (FixedBytes.copyFrom _ []) (FixedBytes.copyFrom _ []))) =
        (out, s) ∧
      out ≠ .panic ∧ s.made.sum ≤ maxFrameSize := by
  obtain ⟨out, s, hrun, hpanic, _, hsum, _⟩ := decodeFrame_safe Transparent.suite
    Transparent.opensOnlySeals.opensToLength
    (List.replicate frameHeaderSize 255)
    (newFrameAEAD (FixedBytes.copyFrom _ []) (FixedBytes.copyFrom _ []))
  exact ⟨out, s, hrun, hpanic, hsum⟩

/-! ## How much of the stream is consumed -/

/-- `DecodeFrame` on `r` stops where the announced frame ends, unless the stream
ended first. -/
def Synchronised (P : Primitives) (r : Bytes) (f : FrameAEAD) : Prop :=
  (∀ e, (decodeFrame P r f).1 ≠ .error (.io e)) →
    (decodeFrame P r f).2 = r.drop (4 + hdrFrameLen r)

/-- The lengths in the header of `r` pass the checks of `DecodeFrame`. -/
def LengthsAccepted (r : Bytes) : Prop :=
  hdrMetaLen r ≤ maxMetaLen ∧ hdrPadLen r ≤ maxFramePad ∧
    (hdrPadLen r : ℤ) + aeadTagLen + hdrMetaLen r ≤ hdrBodyLen r

instance (r : Bytes) : Decidable (LengthsAccepted r) :=
  inferInstanceAs (Decidable (_ ∧ _))

section Consumed

variable {P : Primitives} {r : Bytes} {f : FrameAEAD}

theorem hdrFrameLen_take : hdrFrameLen (r.take frameHeaderSize) = hdrFrameLen r :=
  congrArg getBE (slice_take (by simp))

theorem hdrMetaLen_take : hdrMetaLen (r.take frameHeaderSize) = hdrMetaLen r :=
  congrArg getBE (slice_take (by simp))

theorem hdrPadLen_take : hdrPadLen (r.take frameHeaderSize) = hdrPadLen r :=
  congrArg getBE (slice_take (by simp))

theorem hdrBodyLen_take : hdrBodyLen (r.take frameHeaderSize) = hdrBodyLen r := by
  rw [hdrBodyLen, hdrFrameLen_take, hdrBodyLen]

theorem decodeFrame_of_short (hshort : r.length < frameHeaderSize) :
    ∃ e, (decodeFrame P r f).1 = .error (.io e) := by
  unfold decodeFrame readFull
  rw [if_neg (not_le.mpr hshort)]
  exact ⟨_, rfl⟩

/-- A refused header is all that has been read. -/
theorem decodeFrame_of_refused
    (hhdr : frameHeaderSize ≤ r.length) (hlarge : hdrFrameLen r ≤ maxFrameSize)
    (hrefused : ¬ LengthsAccepted r) :
    (∀ e, (decodeFrame P r f).1 ≠ .error (.io e)) ∧
      (decodeFrame P r f).2 = r.drop frameHeaderSize := by
  unfold decodeFrame
  rw [readFull_of_le hhdr]
  dsimp only
  rw [hdrFrameLen_take, hdrMetaLen_take, hdrPadLen_take, hdrBodyLen_take,
    if_neg (not_lt.mpr hlarge)]
  by_cases hmeta : maxMetaLen < hdrMetaLen r
  · rw [if_pos hmeta]
    simp
  by_cases hpad : maxFramePad < hdrPadLen r
  · rw [if_neg hmeta, if_pos hpad]
    simp
  have hshort : hdrBodyLen r < hdrPadLen r + aeadTagLen + hdrMetaLen r := by
    by_contra hroom
    exact hrefused ⟨not_lt.mp hmeta, not_lt.mp hpad, not_lt.mp hroom⟩
  rw [if_neg hmeta, if_neg hpad, if_pos hshort]
  simp

/-- An accepted frame is read to its end, whatever becomes of it. -/
theorem decodeFrame_of_accepted
    (hlarge : hdrFrameLen r ≤ maxFrameSize) (hfits : LengthsAccepted r)
    (hwhole : 4 + hdrFrameLen r ≤ r.length) :
    ∃ cipherBuf, decodeFrame P r f =
      (openFrame P f (r.take frameHeaderSize) cipherBuf,
        r.drop (4 + hdrFrameLen r)) := by
  obtain ⟨hmeta, hpad, hbody⟩ := hfits
  have hbodyLen : hdrBodyLen r = hdrFrameLen r - (8 + 1 + 2 + 2) := rfl
  have hcipherLen : hdrCipherLen (r.take frameHeaderSize) + hdrPadLen r +
      frameHeaderSize = 4 + hdrFrameLen r := by
    rw [hdrCipherLen, hdrBodyLen_take, hdrPadLen_take]
    simp only [frameHeaderSize, aeadTagLen] at hbody ⊢
    omega
  have hcipher : hdrCipherLen (r.take frameHeaderSize) ≤
      (r.drop frameHeaderSize).length := by
    rw [List.length_drop]
    omega
  have hdrain : discardN (hdrPadLen r)
      ((r.drop frameHeaderSize).drop (hdrCipherLen (r.take frameHeaderSize))) =
      (.ok (), r.drop (4 + hdrFrameLen r)) := by
    have hend : frameHeaderSize + (hdrCipherLen (r.take frameHeaderSize) +
        hdrPadLen r) = 4 + hdrFrameLen r := by omega
    rw [discardN_of_le (by simp only [List.length_drop]; omega),
      List.drop_drop, List.drop_drop, hend]
  refine ⟨(r.drop frameHeaderSize).take (hdrCipherLen (r.take frameHeaderSize)),
    ?_⟩
  unfold decodeFrame
  rw [readFull_of_le (by omega)]
  dsimp only
  rw [hdrFrameLen_take, hdrMetaLen_take, hdrPadLen_take, hdrBodyLen_take,
    if_neg (not_lt.mpr hlarge), if_neg (not_lt.mpr hmeta),
    if_neg (not_lt.mpr hpad), if_neg (not_lt.mpr hbody), readFull_of_le hcipher]
  dsimp only
  rw [discardN_guard, hdrain]

end Consumed

/-- The stream stays synchronised exactly when it ends inside the header, the
frame is as long as its header, or its lengths are accepted. -/
theorem decodeFrame_synchronised_iff
    (P : Primitives) (r : Bytes) (f : FrameAEAD)
    (hlarge : hdrFrameLen r ≤ maxFrameSize)
    (hwhole : 4 + hdrFrameLen r ≤ r.length) :
    Synchronised P r f ↔
      r.length < frameHeaderSize ∨ 4 + hdrFrameLen r = frameHeaderSize ∨
        LengthsAccepted r := by
  by_cases hshort : r.length < frameHeaderSize
  · obtain ⟨e, he⟩ := @decodeFrame_of_short P r f hshort
    simp only [hshort, true_or, iff_true]
    exact fun hio => absurd he (hio e)
  by_cases hfits : LengthsAccepted r
  · obtain ⟨cipherBuf, hdec⟩ :=
      @decodeFrame_of_accepted P r f hlarge hfits hwhole
    simp only [hfits, or_true, iff_true]
    intro _
    rw [hdec]
  · obtain ⟨hio, hrest⟩ :=
      @decodeFrame_of_refused P r f (not_lt.mp hshort) hlarge hfits
    simp only [hshort, hfits, or_false, false_or]
    constructor
    · intro hsync
      have hlen := congrArg List.length (hrest.symm.trans (hsync hio))
      simp only [List.length_drop] at hlen
      omega
    · intro hlen _
      rw [hrest, hlen]

namespace Transparent

def receiver : FrameAEAD :=
  newFrameAEAD (FixedBytes.copyFrom _ []) (FixedBytes.copyFrom _ [])

/-- A frame with the announced length of meta and 16 bytes behind its header. -/
def framed (metaLen : ℕ) : Bytes :=
  frameHeader 29 0 frameTCPData metaLen 0 ++ List.replicate 16 7

/-- A frame of no bytes, and the next one. -/
def emptyThenFramed : Bytes := putBE 4 0 ++ framed 0

end Transparent

/-- Whatever the cipher says to the ciphertext, it has been read. -/
theorem decodeFrame_synchronised_unopened :
    Synchronised Transparent.suite (Transparent.framed 0 ++ [9])
      Transparent.receiver :=
  (decodeFrame_synchronised_iff Transparent.suite (Transparent.framed 0 ++ [9])
    Transparent.receiver (by decide) (by decide)).mpr (by decide)

/-- A frame refused for its meta length stays in the stream behind its header,
and one of no bytes takes the next frame's first bytes with it. -/
theorem decodeFrame_loses_the_stream :
    (hdrFrameLen (Transparent.framed 1025) = 29 ∧
      (decodeFrame Transparent.suite (Transparent.framed 1025 ++ [9])
        Transparent.receiver).2 = List.replicate 16 7 ++ [9] ∧
      ¬ Synchronised Transparent.suite (Transparent.framed 1025 ++ [9])
        Transparent.receiver) ∧
    hdrFrameLen Transparent.emptyThenFramed = 0 ∧
      (decodeFrame Transparent.suite Transparent.emptyThenFramed
        Transparent.receiver).2 = (Transparent.framed 0).drop 13 ∧
      ¬ Synchronised Transparent.suite Transparent.emptyThenFramed
        Transparent.receiver := by
  have hmeta := @decodeFrame_of_refused Transparent.suite
    (Transparent.framed 1025 ++ [9]) Transparent.receiver (by decide) (by decide)
    (by decide)
  have hempty := @decodeFrame_of_refused Transparent.suite
    Transparent.emptyThenFramed Transparent.receiver (by decide) (by decide)
    (by decide)
  refine ⟨⟨by decide, by decide, fun hsync => ?_⟩, by decide, by decide,
    fun hsync => ?_⟩
  · have hrest := hsync hmeta.1
    rw [hmeta.2] at hrest
    exact absurd hrest (by decide)
  · have hrest := hsync hempty.1
    rw [hempty.2] at hrest
    exact absurd hrest (by decide)

end SingEwp
