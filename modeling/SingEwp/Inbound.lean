import SingEwp.PacketConn
import SingEwp.StreamConn

/-!
# What arrives

The events that a transport holds for a stream, read off the messages alone.  The
bytes of a connection fall into messages, and messages open to events, up to the
first one that does not.  `outlook` is what `Recv` has returned and what is still
to come: receiving moves an event from the second part to the first, and nothing
else changes it but the loss of the transport.
-/

namespace SingEwp

variable {P : Primitives}

/-! ## Messages -/

/-- The whole messages at the front of a byte string; the length of the string is
fuel enough. -/
def splitMessages : ℕ → Bytes → List Bytes
  | 0, _ => []
  | fuel + 1, r =>
      let n := getBE (r.take 4)
      if r.length < 4 ∨ maxFrameSize < n ∨ r.length < 4 + n then []
      else (r.drop 4).take n :: splitMessages fuel (r.drop (4 + n))

def messagesIn (r : Bytes) : List Bytes := splitMessages r.length r

theorem splitMessages_lengthFrame
    {msg : Bytes} (hfits : msg.length ≤ maxFrameSize) (fuel : ℕ) (rest : Bytes) :
    splitMessages (fuel + 1) (lengthFrame msg ++ rest) =
      msg :: splitMessages fuel rest := by
  have hhdr : getBE ((lengthFrame msg ++ rest).take 4) = msg.length := by
    rw [lengthFrame, List.append_assoc, List.take_left' (putBE_length 4 _)]
    exact getBE_putBE_of_lt (by simp at hfits ⊢; omega)
  have hwhole : ¬((lengthFrame msg ++ rest).length < 4 ∨
      maxFrameSize < msg.length ∨
      (lengthFrame msg ++ rest).length < 4 + msg.length) := by
    rw [List.length_append, lengthFrame_length]
    omega
  have hdrop : (lengthFrame msg ++ rest).drop (4 + msg.length) = rest :=
    List.drop_left' (lengthFrame_length msg)
  have hmsg : ((lengthFrame msg ++ rest).drop 4).take msg.length = msg := by
    rw [lengthFrame, List.append_assoc, List.drop_left' (putBE_length 4 _),
      List.take_left]
  rw [splitMessages, hhdr, if_neg hwhole, hdrop, hmsg]

theorem splitMessages_cons
    {fuel : ℕ} {r msg : Bytes} {more : List Bytes}
    (hsplit : splitMessages fuel r = msg :: more) :
    msg.length ≤ maxFrameSize ∧ ∃ rest fuel', r = lengthFrame msg ++ rest ∧
      fuel = fuel' + 1 ∧ more = splitMessages fuel' rest := by
  cases fuel with
  | zero => cases hsplit
  | succ fuel =>
      rw [splitMessages] at hsplit
      split at hsplit
      · cases hsplit
      · rename_i hwhole
        simp only [not_or, not_lt] at hwhole
        obtain ⟨hhdr, hfits, hbody⟩ := hwhole
        obtain ⟨rfl, rfl⟩ := List.cons.inj hsplit
        have hlen : ((r.drop 4).take (getBE (r.take 4))).length =
            getBE (r.take 4) := by
          rw [List.length_take, List.length_drop]
          omega
        refine ⟨hlen.trans_le hfits, r.drop (4 + getBE (r.take 4)), fuel, ?_, rfl,
          rfl⟩
        have hput : putBE 4 (getBE (r.take 4)) = r.take 4 :=
          putBE_getBE_of_length (by rw [List.length_take]; omega)
        rw [lengthFrame, hlen, hput, List.append_assoc, ← List.drop_drop,
          List.take_append_drop, List.take_append_drop]

theorem splitMessages_fuel
    {fuel fuel' : ℕ} {r : Bytes} (hfuel : r.length ≤ fuel)
    (hfuel' : r.length ≤ fuel') : splitMessages fuel r = splitMessages fuel' r := by
  induction fuel generalizing fuel' r with
  | zero =>
      have hnil : r = [] := List.length_eq_zero_iff.mp (by omega)
      subst hnil
      cases fuel' <;> rfl
  | succ fuel ih =>
      cases fuel' with
      | zero =>
          have hnil : r = [] := List.length_eq_zero_iff.mp (by omega)
          subst hnil
          rfl
      | succ fuel' =>
          rw [splitMessages, splitMessages]
          split
          · rfl
          · rename_i hwhole
            have hless := List.length_drop (l := r) (i := 4 + getBE (r.take 4))
            exact congrArg _ (ih (by omega) (by omega))

theorem messagesIn_lengthFrame
    {msg : Bytes} (hfits : msg.length ≤ maxFrameSize) (rest : Bytes) :
    messagesIn (lengthFrame msg ++ rest) = msg :: messagesIn rest := by
  obtain ⟨n, hn⟩ : ∃ n, (lengthFrame msg ++ rest).length = n + 1 :=
    ⟨3 + msg.length + rest.length, by
      rw [List.length_append, lengthFrame_length]; omega⟩
  rw [messagesIn, hn, splitMessages_lengthFrame hfits, messagesIn]
  refine congrArg _ (splitMessages_fuel ?_ le_rfl)
  rw [List.length_append, lengthFrame_length] at hn
  omega

/-- The framer reads what is the first message of its bytes. -/
theorem framerRead_ok
    {c c' : Conn} {msg : Bytes} (hread : framerRead c = some (.ok msg, c')) :
    msg.length ≤ maxFrameSize ∧ c.pending = lengthFrame msg ++ c'.pending := by
  unfold framerRead at hread
  split at hread
  · cases hread
  · cases hread
  · rename_i hdr c₁ hhdr
    obtain ⟨hlen, hpending⟩ := Conn.readFull_ok hhdr
    split at hread
    · cases hread
    rename_i hfits
    split at hread
    · cases hread
    · cases hread
    · rename_i msg' c₂ hmsg
      obtain ⟨hsize, hpending'⟩ := Conn.readFull_ok hmsg
      cases hread
      refine ⟨by omega, ?_⟩
      rw [hpending, hpending', lengthFrame, hsize, putBE_getBE_of_length hlen,
        List.append_assoc]

theorem framerRead_messagesIn
    {c : Conn} {msg : Bytes} {more : List Bytes}
    (hmessages : messagesIn c.pending = msg :: more) :
    ∃ c', framerRead c = some (.ok msg, c') := by
  obtain ⟨hfits, rest, _, hpending, _⟩ := splitMessages_cons hmessages
  obtain ⟨c', hread, _⟩ := framerRead_lengthFrame hfits hpending
  exact ⟨c', hread⟩

/-! ## Events -/

/-- The events of the messages, opened in turn, up to the first that does not
open. -/
def inboundEvents (P : Primitives) : FrameAEAD → List Bytes → List Event
  | _, [] => []
  | f, msg :: rest =>
      match (decodeFrame P msg f).1 with
      | .error _ => []
      | .ok (df, f) =>
          match eventOf df with
          | .error _ => []
          | .ok ev => ev :: inboundEvents P f rest

namespace SecureStream

/-- What these messages are to the stream. -/
def inbound (P : Primitives) (s : SecureStream) (msgs : List Bytes) : List Event :=
  if s.closed then [] else inboundEvents P s.recv msgs

/-- What `Recv` has returned and will return. -/
def outlook (P : Primitives) (s : SecureStream) (msgs : List Bytes) : List Event :=
  s.received.map ReceivedFrame.event ++ s.inbound P msgs

variable {s : SecureStream}

theorem inbound_of_closed (hclosed : s.closed = true) (msgs : List Bytes) :
    s.inbound P msgs = [] := by
  rw [inbound, if_pos hclosed]

theorem inbound_nil (s : SecureStream) : s.inbound P [] = [] := by
  unfold inbound
  split <;> rfl

theorem outlook_recv (hopen : s.closed = false) (msg : Bytes) (rest : List Bytes) :
    (SingEwp.recv P (readingEnv (.ok msg)) s).2.outlook P rest =
      s.outlook P (msg :: rest) := by
  have hclosing : ∀ s' : SecureStream, s'.received = s.received →
      s'.close.outlook P rest = s.received.map ReceivedFrame.event := by
    intro s' hreceived
    rw [outlook, inbound_of_closed (close_closed s'), close_received, hreceived,
      List.append_nil]
  have hhead : s.outlook P (msg :: rest) =
      s.received.map ReceivedFrame.event ++ inboundEvents P s.recv (msg :: rest) := by
    rw [outlook, inbound, hopen]
    rfl
  rw [hhead]
  unfold SingEwp.recv
  simp only [hopen, Bool.false_eq_true, if_false, readingEnv, inboundEvents]
  cases hdec : (decodeFrame P msg s.recv).1 with
  | error e => simpa using hclosing s rfl
  | ok opened =>
      obtain ⟨df, recv⟩ := opened
      dsimp only
      cases hevent : eventOf df with
      | error e => simpa using hclosing (s.countReceived recv msg) rfl
      | ok ev => simp [outlook, inbound, countReceived, hopen]

/-- A lost transport takes the messages with it. -/
theorem outlook_close (s : SecureStream) (msgs : List Bytes) :
    s.close.outlook P msgs <+: s.outlook P msgs := by
  rw [outlook, inbound_of_closed s.close_closed, close_received, List.append_nil]
  exact List.prefix_append _ _

end SecureStream

/-! ## The TCP adapter -/

namespace StreamConn

/-- The events that the connection holds, if `later` is still to arrive. -/
def inbound (P : Primitives) (later : Bytes) (c : StreamConn) : List Event :=
  c.stream.inbound P (messagesIn (c.conn.pending ++ later))

def outlook (P : Primitives) (later : Bytes) (c : StreamConn) : List Event :=
  c.stream.outlook P (messagesIn (c.conn.pending ++ later))

variable {c c' : StreamConn} {later : Bytes}
variable {result : Except EwpError Event}

theorem outlook_arrive (c : StreamConn) (frag later : Bytes) :
    outlook P later { c with conn := c.conn.arrive frag } =
      c.outlook P (frag ++ later) := by
  rw [outlook, outlook, Conn.pending_arrive, List.append_assoc]

theorem recv_lost (hopen : c.stream.closed = false) (e : EwpError) :
    (recv P (readingEnv (.error e)) c.stream).2 = c.stream.close := by
  simp [recv, hopen, readingEnv]

/-- The ways through `Recv` over the framer. -/
theorem outlook_recvFramed
    (hrecv : recvFramed P c = some (result, c')) :
    c'.outlook P later <+: c.outlook P later ∧
      c'.outlook P [] = c.outlook P [] := by
  unfold recvFramed at hrecv
  split at hrecv
  · cases hrecv
    exact ⟨List.prefix_rfl, rfl⟩
  rename_i hclosed
  have hopen : c.stream.closed = false := by simpa using hclosed
  cases hread : framerRead c.conn with
  | none => simp [hread] at hrecv
  | some r =>
      obtain ⟨msg, conn⟩ := r
      simp only [hread, Option.some.injEq, Prod.mk.injEq] at hrecv
      obtain ⟨-, rfl⟩ := hrecv
      cases msg with
      | ok msg =>
          obtain ⟨hfits, hpending⟩ := framerRead_ok hread
          have hsame : ∀ later, outlook P later
              { c with
                stream := (recv P (readingEnv (.ok msg)) c.stream).2
                conn := conn } = c.outlook P later := by
            intro later
            rw [outlook, outlook, SecureStream.outlook_recv hopen, hpending,
              List.append_assoc, messagesIn_lengthFrame hfits]
          exact ⟨(hsame later).symm ▸ List.prefix_rfl, hsame []⟩
      | error e =>
          -- the framer fails only where no whole message is left
          have hnone : messagesIn c.conn.pending = [] := by
            cases hmessages : messagesIn c.conn.pending with
            | nil => rfl
            | cons msg more =>
                obtain ⟨conn', hok⟩ := framerRead_messagesIn hmessages
                cases hread.symm.trans hok
          have hover : ∀ msgs, (recv P (readingEnv (.error e)) c.stream).2.outlook P
              msgs = c.stream.received.map ReceivedFrame.event := by
            intro msgs
            rw [recv_lost hopen, SecureStream.outlook,
              SecureStream.inbound_of_closed (SecureStream.close_closed _),
              SecureStream.close_received, List.append_nil]
          refine ⟨?_, ?_⟩
          · rw [outlook, hover]
            exact List.prefix_append _ _
          · rw [outlook, hover, outlook, List.append_nil, hnone,
              SecureStream.outlook, SecureStream.inbound_nil, List.append_nil]

/-- The loop of `Read` does what its receives do. -/
theorem fillReadBuf_keeps
    {K : StreamConn → StreamConn → Prop} (hrefl : ∀ c, K c c)
    (htrans : ∀ {a b c}, K a b → K b c → K a c)
    (hbuf : ∀ c b, K c { c with readBuf := b })
    (hrecv : ∀ {c c' result}, recvFramed P c = some (result, c') → K c c')
    (fuel : ℕ) (c : StreamConn) : K c (fillReadBuf P fuel c).2 := by
  induction fuel generalizing c with
  | zero => exact hrefl c
  | succ fuel ih =>
      unfold fillReadBuf
      split
      · exact hrefl c
      split
      · exact hrefl c
      · rename_i hnext
        exact hrecv hnext
      · rename_i hnext
        have hfirst := hrecv hnext
        split
        · split
          · exact htrans hfirst (ih _)
          · exact htrans hfirst (htrans (hbuf _ _) (ih _))
        · split
          · exact htrans hfirst (ih _)
          · exact hfirst

theorem outlook_streamRead (n : ℕ) (c : StreamConn) (later : Bytes) :
    outlook P later (streamRead P n c).2 <+: c.outlook P later ∧
      outlook P [] (streamRead P n c).2 = c.outlook P [] := by
  have hfill := fillReadBuf_keeps (P := P)
    (K := fun c c' => c'.outlook P later <+: c.outlook P later ∧
      c'.outlook P [] = c.outlook P [])
    (fun _ => ⟨List.prefix_rfl, rfl⟩)
    (fun hab hbc => ⟨hbc.1.trans hab.1, hbc.2.trans hab.2⟩)
    (fun _ _ => ⟨List.prefix_rfl, rfl⟩) outlook_recvFramed
    (c.conn.pending.length + 2) c
  unfold streamRead
  split
  · rename_i hread
    rw [hread] at hfill
    exact hfill
  · rename_i hread
    rw [hread] at hfill
    exact hfill
  · rename_i hread
    rw [hread] at hfill
    exact hfill

theorem recvFramed_ok_length
    {ev : Event} (hrecv : recvFramed P c = some (.ok ev, c')) :
    c'.conn.pending.length < c.conn.pending.length := by
  unfold recvFramed at hrecv
  split at hrecv
  · cases hrecv
  rename_i hclosed
  cases hread : framerRead c.conn with
  | none => simp [hread] at hrecv
  | some r =>
      obtain ⟨msg, conn⟩ := r
      simp only [hread, Option.some.injEq, Prod.mk.injEq] at hrecv
      obtain ⟨hok, rfl⟩ := hrecv
      cases msg with
      | error e => simp [recv, hclosed, readingEnv] at hok
      | ok msg => exact framerRead_length hread

/-- A call waits only if no whole message is there. -/
theorem inbound_of_waits
    {fuel : ℕ} (hfuel : c.conn.pending.length + 1 < fuel)
    (hwaits : fillReadBuf P fuel c = (none, c')) : c'.inbound P [] = [] := by
  induction fuel generalizing c with
  | zero => omega
  | succ fuel ih =>
      unfold fillReadBuf at hwaits
      split at hwaits
      · cases hwaits
      split at hwaits
      · rename_i hnone
        obtain rfl := (Prod.mk.inj hwaits).2
        unfold recvFramed at hnone
        split at hnone
        · cases hnone
        rw [inbound, List.append_nil]
        cases hmessages : messagesIn c.conn.pending with
        | nil => exact SecureStream.inbound_nil _
        | cons msg more =>
            obtain ⟨conn, hread⟩ := framerRead_messagesIn hmessages
            simp [hread] at hnone
      · cases hwaits
      · rename_i ev next hnext
        have hless : next.conn.pending.length + 1 < fuel :=
          lt_of_lt_of_le (Nat.succ_lt_succ (recvFramed_ok_length hnext))
            (Nat.lt_succ_iff.mp hfuel)
        split at hwaits
        · split at hwaits
          · exact ih hless hwaits
          · exact ih (c := { next with readBuf := ev.payload.bytes }) hless hwaits
        · split at hwaits
          · exact ih hless hwaits
          · cases hwaits

end StreamConn

/-! ## The UDP adapter -/

namespace PacketEnd

def inbound (P : Primitives) (later : List Bytes) (c : PacketEnd) : List Event :=
  c.conn.stream.inbound P (c.inbox ++ later)

def outlook (P : Primitives) (later : List Bytes) (c : PacketEnd) : List Event :=
  c.conn.stream.outlook P (c.inbox ++ later)

theorem outlook_arrive (c : PacketEnd) (msg : Bytes) (later : List Bytes) :
    outlook P later { c with inbox := c.inbox ++ [msg] } =
      c.outlook P (msg :: later) := by
  rw [outlook, outlook, List.append_assoc, List.singleton_append]

theorem outlook_recvQueued
    {c : PacketEnd} {result : Except EwpError Event} {s : SecureStream}
    {inbox : List Bytes}
    (hrecv : recvQueued P c.conn.stream c.inbox = some (result, s, inbox))
    (later : List Bytes) :
    outlook P later ⟨c.conn.setStream s, inbox⟩ = c.outlook P later := by
  unfold recvQueued at hrecv
  split at hrecv
  · obtain ⟨-, rfl, rfl⟩ := by simpa using hrecv
    rfl
  · rename_i hclosed
    cases hinbox : c.inbox with
    | nil => simp [hinbox] at hrecv
    | cons msg rest =>
        simp only [hinbox, Option.some.injEq, Prod.mk.injEq] at hrecv
        obtain ⟨-, rfl, rfl⟩ := hrecv
        have hopen : c.conn.stream.closed = false := by simpa using hclosed
        rw [outlook, outlook, hinbox, List.cons_append,
          ← SecureStream.outlook_recv hopen]
        rfl

theorem outlook_readFromLoop (n fuel : ℕ) (c : PacketEnd) (later : List Bytes) :
    outlook P later (readFromLoop P n fuel c).2 = c.outlook P later := by
  induction fuel generalizing c with
  | zero => rfl
  | succ fuel ih =>
      unfold readFromLoop
      split
      · rfl
      · rename_i hrecv
        exact outlook_recvQueued hrecv later
      · rename_i hrecv
        have hfirst := outlook_recvQueued hrecv later
        dsimp only
        -- every branch stops here or goes on from here
        split_ifs
        all_goals first
          | exact hfirst
          | exact (ih _).trans hfirst

theorem recvQueued_length
    {s s' : SecureStream} {inbox inbox' : List Bytes} {ev : Event}
    (hrecv : recvQueued P s inbox = some (.ok ev, s', inbox')) :
    inbox.length = inbox'.length + 1 := by
  unfold recvQueued at hrecv
  split at hrecv
  · cases hrecv
  · cases inbox with
    | nil => cases hrecv
    | cons msg rest =>
        simp only [Option.some.injEq, Prod.mk.injEq] at hrecv
        rw [← hrecv.2.2, List.length_cons]

theorem inbound_of_waits
    {n fuel : ℕ} {c c' : PacketEnd} (hfuel : c.inbox.length < fuel)
    (hwaits : readFromLoop P n fuel c = (none, c')) : c'.inbound P [] = [] := by
  induction fuel generalizing c with
  | zero => omega
  | succ fuel ih =>
      unfold readFromLoop at hwaits
      split at hwaits
      · rename_i hnone
        obtain rfl := (Prod.mk.inj hwaits).2
        unfold recvQueued at hnone
        split at hnone
        · cases hnone
        · cases hinbox : c.inbox with
          | nil => rw [inbound, hinbox]; exact SecureStream.inbound_nil _
          | cons msg rest => simp [hinbox] at hnone
      · cases hwaits
      · rename_i ev s inbox hrecv
        have hless : inbox.length < fuel := by
          have := recvQueued_length hrecv
          omega
        dsimp only at hwaits
        split_ifs at hwaits
        all_goals first
          | exact ih hless hwaits
          | cases hwaits

theorem outlook_readFrom (n : ℕ) (c : PacketEnd) (later : List Bytes) :
    outlook P later (readFrom P n c).2 = c.outlook P later := by
  unfold readFrom
  split
  · rfl
  · exact outlook_readFromLoop n _ c later

end PacketEnd

end SingEwp
