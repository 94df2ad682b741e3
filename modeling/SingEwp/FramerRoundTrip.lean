import SingEwp.LengthFramer
import SingEwp.SliceMemory

/-!
# Round trips through the length framer

`ReadMessage` reads every message into one scratch buffer, which grows with the
longest message so far, and hands out a copy.  `framerRead` leaves that memory
out.  Here the method is the one of the source, slices and all: it returns what
`framerRead` returns, and no later call changes a message that was handed out.
So a run of reads is a run on byte strings, and there the stream of any list of
messages reads back as that list, up to where the stream ends.
-/

namespace SingEwp

/-! ## The reading side with its memory -/

structure LengthFramer where
  c : Conn
  heap : Heap UInt8
  readBuf : SliceRef

namespace LengthFramer

/-- `io.ReadFull(f.c, buf)`; `none` while it waits.  A read that fails leaves in
`buf` what had arrived. -/
def readFull (f : LengthFramer) (buf : SliceRef) :
    Option (Option IoError × LengthFramer) :=
  match f.c.readFull buf.len with
  | none => none
  | some (.error e, c) =>
      some (some e, { f with c := c, heap := f.heap.copyTo buf f.c.pending })
  | some (.ok b, c) =>
      some (none, { f with c := c, heap := f.heap.copyTo buf b })

/-- `make([]byte, n)`, and `var hdr [4]byte` for the length. -/
def make (f : LengthFramer) (n : ℕ) : SliceRef × LengthFramer :=
  let made := f.heap.alloc (List.replicate n 0)
  (made.1, { f with heap := made.2 })

/-- The scratch buffer at `n` bytes. -/
def sizeReadBuf (f : LengthFramer) (n : ℕ) : LengthFramer :=
  if f.readBuf.cap < n then { (f.make n).2 with readBuf := (f.make n).1 }
  else { f with readBuf := f.readBuf.sub 0 n }

/-- `ReadMessage` from the length on. -/
def readBody (f : LengthFramer) (n : ℕ) :
    Option (Except EwpError SliceRef × LengthFramer) :=
  let f := f.sizeReadBuf n
  match f.readFull f.readBuf with
  | none => none
  | some (some e, f) => some (.error (.io e), f)
  | some (none, f) =>
      let out := (f.make n).1
      let heap := (f.make n).2.heap
      some (.ok out, { f with heap := heap.copyTo out (heap.read f.readBuf) })

/-- `LengthFramer.ReadMessage`; `none` while it waits for more bytes. -/
def readMessage (f : LengthFramer) :
    Option (Except EwpError SliceRef × LengthFramer) :=
  let hdr := (f.make 4).1
  match (f.make 4).2.readFull hdr with
  | none => none
  | some (some e, f) => some (.error (.io e), f)
  | some (none, f) =>
      if maxFrameSize < getBE (f.heap.read hdr) then
        some (.error .frameTooLarge, f)
      else f.readBody (getBE (f.heap.read hdr))

/-! ## One call -/

/-- From `f` to `f'` only the scratch buffer and new memory were written. -/
structure Spares (f f' : LengthFramer) : Prop where
  held : f'.heap.Holds f'.readBuf
  spared : ∀ t, f.heap.Holds t → f.readBuf.Apart t →
    f'.heap.Holds t ∧ f'.heap.read t = f.heap.read t ∧ f'.readBuf.Apart t

theorem Spares.trans {f f' f'' : LengthFramer} (hfirst : Spares f f')
    (hsecond : Spares f' f'') : Spares f f'' := by
  refine ⟨hsecond.held, ?_⟩
  intro t ht hapart
  obtain ⟨ht', hread, hapart'⟩ := hfirst.spared t ht hapart
  obtain ⟨ht'', hread', hapart''⟩ := hsecond.spared t ht' hapart'
  exact ⟨ht'', hread'.trans hread, hapart''⟩

/-- Filling new memory changes no slice there was before. -/
theorem spares_fresh {f : LengthFramer} (hbuf : f.heap.Holds f.readBuf) (c : Conn)
    (vals new : List UInt8) :
    Spares f { f with
      c := c
      heap := (f.heap.alloc vals).2.copyTo (f.heap.alloc vals).1 new } := by
  refine ⟨(Heap.copyTo_alloc hbuf vals new).1, ?_⟩
  intro t ht hapart
  obtain ⟨ht', hread⟩ := Heap.copyTo_alloc ht vals new
  exact ⟨ht', hread, hapart⟩

theorem spares_readBuf {f : LengthFramer} (hbuf : f.heap.Holds f.readBuf) (c : Conn)
    (b : Bytes) :
    Spares f { f with c := c, heap := f.heap.copyTo f.readBuf b } := by
  refine ⟨hbuf.copyTo hbuf b, ?_⟩
  intro t ht hapart
  obtain ⟨ht', hread⟩ := Heap.keeps_copyTo hbuf b t ht hapart
  exact ⟨ht', hread, hapart⟩

/-- Whatever the scratch buffer was, it is `n` bytes long afterwards. -/
theorem sizeReadBuf_spec {f : LengthFramer} (hbuf : f.heap.Holds f.readBuf) (n : ℕ) :
    (f.sizeReadBuf n).readBuf.len = n ∧ (f.sizeReadBuf n).c = f.c ∧
      Spares f (f.sizeReadBuf n) := by
  unfold sizeReadBuf
  by_cases hgrow : f.readBuf.cap < n
  · rw [if_pos hgrow]
    refine ⟨List.length_replicate, rfl, Heap.holds_alloc, ?_⟩
    intro t ht _
    exact ⟨ht.alloc, Heap.read_alloc ht, Heap.alloc_apart ht⟩
  · rw [if_neg hgrow]
    refine ⟨rfl, rfl, Heap.holds_sub hbuf (Nat.zero_le n) (not_lt.mp hgrow), ?_⟩
    intro t ht hapart
    refine ⟨ht, rfl, ?_⟩
    simpa only [SliceRef.Apart, SliceRef.sub, Nat.sub_zero] using hapart

/-- A call with the memory ended as the call on byte strings ended.  What it
returned is a slice that the scratch buffer does not reach. -/
inductive ReadsAs (f : LengthFramer) :
    Option (Except EwpError SliceRef × LengthFramer) →
      Option (Except EwpError Bytes × Conn) → Prop
  | waits : ReadsAs f none none
  | fails (e : EwpError) (f' : LengthFramer) :
      Spares f f' → ReadsAs f (some (.error e, f')) (some (.error e, f'.c))
  | gives (out : SliceRef) (f' : LengthFramer) (msg : Bytes) :
      Spares f f' → f'.heap.Holds out → f'.readBuf.Apart out →
      f'.heap.read out = msg →
      ReadsAs f (some (.ok out, f')) (some (.ok msg, f'.c))

theorem ReadsAs.after {f f' : LengthFramer} (hspares : Spares f f')
    {outcome : Option (Except EwpError SliceRef × LengthFramer)}
    {spec : Option (Except EwpError Bytes × Conn)}
    (hreads : ReadsAs f' outcome spec) : ReadsAs f outcome spec := by
  cases hreads with
  | waits => exact .waits
  | fails e f'' hspares' => exact .fails e f'' (hspares.trans hspares')
  | gives out f'' msg hspares' hout hapart hmsg =>
      exact .gives out f'' msg (hspares.trans hspares') hout hapart hmsg

theorem readBody_readsAs {f : LengthFramer} (hbuf : f.heap.Holds f.readBuf) (n : ℕ) :
    ReadsAs f (f.readBody n)
      ((f.c.readFull n).map (fun r => (r.1.mapError EwpError.io, r.2))) := by
  obtain ⟨hlen, hconn, hsized⟩ := sizeReadBuf_spec hbuf n
  unfold readBody
  rw [← hconn]
  generalize f.sizeReadBuf n = g at hlen hconn hsized ⊢
  apply ReadsAs.after hsized
  dsimp only
  unfold readFull
  rw [hlen]
  rcases hread : g.c.readFull n with _ | ⟨e | b, c⟩
  · exact .waits
  · exact .fails (.io e) _ (spares_readBuf hsized.held c g.c.pending)
  · -- the scratch buffer is full, so the copy is the message and nothing else
    have hblen : b.length = g.readBuf.len :=
      (Conn.readFull_ok hread).1.trans hlen.symm
    have hfull : (g.heap.copyTo g.readBuf b).read g.readBuf = b :=
      Heap.read_copyTo hsized.held hblen
    have hscratch := spares_readBuf hsized.held c b
    apply ReadsAs.after hscratch
    have hheld := hscratch.held
    dsimp only at hheld ⊢
    generalize g.heap.copyTo g.readBuf b = heap at hheld hfull ⊢
    refine .gives _ _ b (spares_fresh hheld c _ _) ?_ ?_ ?_
    · exact Heap.holds_alloc.copyTo Heap.holds_alloc _
    · exact (Heap.alloc_apart hheld).symm
    · have hsame : (heap.alloc (List.replicate n 0)).2.read g.readBuf = b :=
        (Heap.read_alloc hheld).trans hfull
      dsimp only [make]
      rw [hsame]
      apply Heap.read_copyTo Heap.holds_alloc
      rw [hblen, hlen]
      exact List.length_replicate.symm

/-- `ReadMessage` with its scratch buffer returns what `framerRead` returns, and
touches no message it returned before. -/
theorem readMessage_readsAs {f : LengthFramer} (hbuf : f.heap.Holds f.readBuf) :
    ReadsAs f f.readMessage (framerRead f.c) := by
  have hlen : (f.make 4).1.len = 4 := rfl
  have hconn : (f.make 4).2.c = f.c := rfl
  unfold readMessage readFull
  dsimp only
  rw [hlen, hconn]
  rcases hread : f.c.readFull 4 with _ | ⟨e | hdr, c⟩
  · simp only [framerRead, hread]
    exact .waits
  · simp only [framerRead, hread]
    exact .fails (.io e) _ (spares_fresh hbuf c _ f.c.pending)
  · have hspares := spares_fresh hbuf c (List.replicate 4 0) hdr
    have hfull : ((f.make 4).2.heap.copyTo (f.make 4).1 hdr).read (f.make 4).1 =
        hdr :=
      Heap.read_copyTo Heap.holds_alloc (Conn.readFull_ok hread).1
    dsimp only
    rw [hfull]
    by_cases hlong : maxFrameSize < getBE hdr
    · simp only [framerRead, hread, if_pos hlong]
      exact .fails .frameTooLarge _ hspares
    · rw [if_neg hlong, framerRead_of_header hread (not_lt.mp hlong)]
      exact (readBody_readsAs hspares.held (getBE hdr)).after hspares

/-! ## Reading message after message -/

/-- Up to `n` calls of `ReadMessage`, the last one the first that fails: the
messages, and the error if there was one. -/
def readMessages : ℕ → LengthFramer →
    Option ((List SliceRef × Option EwpError) × LengthFramer)
  | 0, f => some (([], none), f)
  | n + 1, f =>
      match f.readMessage with
      | none => none
      | some (.error e, f) => some (([], some e), f)
      | some (.ok out, f) =>
          (readMessages n f).map (fun r => ((out :: r.1.1, r.1.2), r.2))

end LengthFramer

/-- The same calls on byte strings. -/
def framerReads : ℕ → Conn → Option ((List Bytes × Option EwpError) × Conn)
  | 0, c => some (([], none), c)
  | n + 1, c =>
      match framerRead c with
      | none => none
      | some (.error e, c) => some (([], some e), c)
      | some (.ok msg, c) =>
          (framerReads n c).map (fun r => ((msg :: r.1.1, r.1.2), r.2))

section FramerReads

variable {c c' c'' : Conn} {msg : Bytes} {msgs : List Bytes} {n : ℕ}

theorem framerReads_fails {e : EwpError} (hread : framerRead c = some (.error e, c')) :
    framerReads 1 c = some (([], some e), c') := by
  rw [framerReads, hread]

theorem framerReads_cons {err : Option EwpError}
    (hread : framerRead c = some (.ok msg, c'))
    (hreads : framerReads n c' = some ((msgs, err), c'')) :
    framerReads (n + 1) c = some ((msg :: msgs, err), c'') := by
  rw [framerReads, hread]
  simp only [hreads, Option.map_some]

end FramerReads

/-- The messages that were handed out read the same when the last call has
returned. -/
theorem LengthFramer.readMessages_of_framerReads
    {f : LengthFramer} (hbuf : f.heap.Holds f.readBuf) {n : ℕ}
    {msgs : List Bytes} {err : Option EwpError} {c : Conn}
    (hreads : framerReads n f.c = some ((msgs, err), c)) :
    ∃ outs f', f.readMessages n = some ((outs, err), f') ∧ f'.c = c ∧
      outs.map f'.heap.read = msgs ∧ Spares f f' := by
  induction n generalizing f msgs with
  | zero =>
      cases hreads
      exact ⟨[], f, rfl, rfl, rfl, hbuf, fun t ht hapart => ⟨ht, rfl, hapart⟩⟩
  | succ n ih =>
      have hone := readMessage_readsAs hbuf
      rw [framerReads] at hreads
      rw [readMessages]
      generalize f.readMessage = outcome at hone ⊢
      generalize framerRead f.c = spec at hone hreads
      cases hone with
      | waits => cases hreads
      | fails e f' hspares =>
          cases hreads
          exact ⟨[], f', rfl, rfl, rfl, hspares⟩
      | gives out f' msg hspares hout hapart hmsg =>
          obtain ⟨⟨⟨later, err'⟩, c'⟩, hlater, heq⟩ := Option.map_eq_some_iff.mp hreads
          cases heq
          obtain ⟨outs, f'', hcalls, hconn, hread, hspares'⟩ := ih hspares.held hlater
          obtain ⟨_, hkept, _⟩ := hspares'.spared out hout hapart
          refine ⟨out :: outs, f'', ?_, hconn, ?_, hspares.trans hspares'⟩
          · simp only [hcalls, Option.map_some]
          · rw [List.map_cons, hread, hkept, hmsg]

/-! ## The stream of a list of messages -/

/-- What the calls of `SendMessage` write, one after another. -/
def framerSends (msgs : List Bytes) : Bytes :=
  msgs.flatMap (fun msg => (framerSend none none msg).2)

theorem framerSends_cons {msg : Bytes} (hfits : msg.length ≤ maxFrameSize)
    (msgs : List Bytes) :
    framerSends (msg :: msgs) = lengthFrame msg ++ framerSends msgs := by
  rw [framerSends, List.flatMap_cons, framerSend, if_neg (not_lt.mpr hfits)]
  rfl

/-- `whole` are the messages that the first `k` bytes of the stream hold in
full. -/
structure HoldsWhole (k : ℕ) (msgs whole : List Bytes) : Prop where
  sent : whole <+: msgs
  within : (framerSends whole).length ≤ k
  longest : ∀ more, more <+: msgs → (framerSends more).length ≤ k → more <+: whole

section HoldsWhole

variable {k : ℕ} {msg : Bytes} {msgs whole : List Bytes}

theorem HoldsWhole.cons (hfits : msg.length ≤ maxFrameSize)
    (hroom : 4 + msg.length ≤ k)
    (hwhole : HoldsWhole (k - (4 + msg.length)) msgs whole) :
    HoldsWhole k (msg :: msgs) (msg :: whole) := by
  have hlen (rest : List Bytes) : (framerSends (msg :: rest)).length =
      4 + msg.length + (framerSends rest).length := by
    rw [framerSends_cons hfits, List.length_append, lengthFrame_length]
  constructor
  · exact List.cons_prefix_cons.mpr ⟨rfl, hwhole.sent⟩
  · have hwithin := hwhole.within
    rw [hlen]
    omega
  · intro more hsent hwithin
    rcases List.prefix_cons_iff.mp hsent with rfl | ⟨rest, rfl, hrest⟩
    · exact List.nil_prefix
    · rw [hlen] at hwithin
      have hlater := hwhole.longest rest hrest (by omega)
      exact List.cons_prefix_cons.mpr ⟨rfl, hlater⟩

theorem holdsWhole_nil (hshort : ∀ msg ∈ msgs.head?, msg.length ≤ maxFrameSize ∧
    k < 4 + msg.length) : HoldsWhole k msgs [] := by
  refine ⟨List.nil_prefix, Nat.zero_le k, ?_⟩
  intro more hsent hwithin
  cases more with
  | nil => exact List.nil_prefix
  | cons msg more =>
      obtain ⟨rest, rfl⟩ := hsent
      obtain ⟨hfits, hlong⟩ := hshort msg rfl
      rw [framerSends_cons hfits, List.length_append, lengthFrame_length] at hwithin
      omega

end HoldsWhole

theorem framerReads_stream
    {msgs : List Bytes} (hfits : ∀ msg ∈ msgs, msg.length ≤ maxFrameSize)
    {c : Conn} {rest : Bytes} (hpending : c.pending = framerSends msgs ++ rest) :
    ∃ c', framerReads msgs.length c = some ((msgs, none), c') ∧
      c'.pending = rest := by
  induction msgs generalizing c with
  | nil => exact ⟨c, rfl, hpending⟩
  | cons msg msgs ih =>
      have hfirst := hfits msg List.mem_cons_self
      rw [framerSends_cons hfirst, List.append_assoc] at hpending
      obtain ⟨c₁, hread, hlater, _⟩ := framerRead_lengthFrame hfirst hpending
      obtain ⟨c₂, hreads, hrest⟩ :=
        ih (fun m hm => hfits m (List.mem_cons_of_mem _ hm)) hlater
      exact ⟨c₂, framerReads_cons hread hreads, hrest⟩

/-- The induction follows the stream to the first message that the cut does not
leave whole; that message, or the end behind the last one, is where the read
fails. -/
theorem framerReads_cut
    {msgs : List Bytes} (hfits : ∀ msg ∈ msgs, msg.length ≤ maxFrameSize)
    {c : Conn} {k : ℕ} {e : IoError} (hended : c.ended = some e)
    (hpending : c.pending = (framerSends msgs).take k) :
    ∃ whole err c', HoldsWhole k msgs whole ∧
      framerReads (whole.length + 1) c = some ((whole, some err), c') := by
  induction msgs generalizing c k with
  | nil =>
      have hnone : c.pending = [] := hpending.trans List.take_nil
      obtain ⟨c', hread⟩ := @framerRead_ended c [] [] (lengthFrame []) e
        (Nat.zero_le _) hended (by rw [hnone, List.nil_append, List.append_nil])
        (by rw [hnone]; exact Nat.zero_lt_succ 3)
      exact ⟨[], _, c', holdsWhole_nil (by simp), framerReads_fails hread⟩
  | cons msg msgs ih =>
      have hfirst := hfits msg List.mem_cons_self
      rw [framerSends_cons hfirst] at hpending
      by_cases hroom : 4 + msg.length ≤ k
      · rw [List.take_append, List.take_of_length_le
          (by rw [lengthFrame_length]; exact hroom), lengthFrame_length] at hpending
        obtain ⟨c₁, hread, hlater, hended'⟩ := framerRead_lengthFrame hfirst hpending
        obtain ⟨whole, err, c₂, hwhole, hreads⟩ :=
          ih (fun m hm => hfits m (List.mem_cons_of_mem _ hm))
            (hended'.trans hended) hlater
        exact ⟨msg :: whole, err, c₂, hwhole.cons hfirst hroom,
          framerReads_cons hread hreads⟩
      · have hcut := List.take_append_drop k (lengthFrame msg ++ framerSends msgs)
        rw [← hpending] at hcut
        have hshort : c.pending.length < 4 + msg.length := by
          rw [hpending, List.length_take]
          omega
        obtain ⟨c', hread⟩ := framerRead_ended hfirst hended hcut hshort
        refine ⟨[], _, c', holdsWhole_nil ?_, framerReads_fails hread⟩
        rintro m ⟨⟩
        exact ⟨hfirst, not_le.mp hroom⟩

/-! ## Round trips -/

/-- Whatever the scratch buffer held and however the stream was cut into
fragments, one call per message returns the messages, each in memory of its own;
a stream that ends early gives the messages it holds in full and then an
error. -/
theorem length_framing_round_trip
    (msgs : List Bytes) (hfits : ∀ msg ∈ msgs, msg.length ≤ maxFrameSize)
    (f : LengthFramer) (hbuf : f.heap.Holds f.readBuf) :
    (∀ msg ∈ msgs, (framerSend none none msg).1 = none) ∧
    (∀ rest, f.c.pending = framerSends msgs ++ rest →
      ∃ outs f', f.readMessages msgs.length = some ((outs, none), f') ∧
        outs.map f'.heap.read = msgs ∧ f'.c.pending = rest) ∧
    (∀ k e, f.c.pending = (framerSends msgs).take k → f.c.ended = some e →
      ∃ whole outs err f', HoldsWhole k msgs whole ∧
        f.readMessages (whole.length + 1) = some ((outs, some err), f') ∧
        outs.map f'.heap.read = whole) := by
  refine ⟨?_, ?_, ?_⟩
  · intro msg hmsg
    exact (framerAccept_none_iff msg).mpr (hfits msg hmsg)
  · intro rest hpending
    obtain ⟨c, hreads, hrest⟩ := framerReads_stream hfits hpending
    obtain ⟨outs, f', hcalls, hconn, hmsgs, _⟩ :=
      LengthFramer.readMessages_of_framerReads hbuf hreads
    exact ⟨outs, f', hcalls, hmsgs, by rw [hconn, hrest]⟩
  · intro k e hpending hended
    obtain ⟨whole, err, c, hwhole, hreads⟩ := framerReads_cut hfits hended hpending
    obtain ⟨outs, f', hcalls, _, hmsgs, _⟩ :=
      LengthFramer.readMessages_of_framerReads hbuf hreads
    exact ⟨whole, outs, err, f', hwhole, hcalls, hmsgs⟩

/-- A reader whose scratch buffer shows the end of an earlier message. -/
def usedReader (c : Conn) : LengthFramer :=
  ⟨c, ⟨[[7, 7, 7, 7, 7]]⟩, ⟨0, 1, 2, 4⟩⟩

theorem usedReader_held (c : Conn) :
    (usedReader c).heap.Holds (usedReader c).readBuf := by
  constructor
  · exact Nat.le_add_left 2 2
  · exact le_rfl

theorem length_framing_round_trip_usedReader :
    let msgs : List Bytes := [[1, 2, 3], [], [9]]
    (∃ outs f',
      (usedReader ⟨[[0, 0], [0, 3, 1], [2, 3, 0], [0, 0, 0, 0, 0, 0, 1, 9, 4]],
        none⟩).readMessages 3 = some ((outs, none), f') ∧
        outs.map f'.heap.read = msgs ∧ f'.c.pending = [4]) ∧
    (∃ whole outs err f', HoldsWhole 9 msgs whole ∧
      (usedReader ⟨[[0, 0, 0], [3, 1, 2], [3, 0, 0]], some .eof⟩).readMessages
        (whole.length + 1) = some ((outs, some err), f') ∧
        outs.map f'.heap.read = whole) := by
  intro msgs
  have hfits : ∀ msg ∈ msgs, msg.length ≤ maxFrameSize := by decide
  exact ⟨(length_framing_round_trip msgs hfits _ (usedReader_held _)).2.1 [4]
      (by decide),
    (length_framing_round_trip msgs hfits _ (usedReader_held _)).2.2 9 .eof
      (by decide) rfl⟩

end SingEwp
