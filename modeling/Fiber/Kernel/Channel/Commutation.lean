import Fiber.Kernel.Channel.Readability

/-!
# Commuting operations

A read or a write acts on one endpoint, which the links and the owners
determine.  Operations that act on different endpoints commute.  A write and a
read that act on the same endpoint commute as long as its queue is non-empty,
up to the maximal length that the queue has had.
-/

namespace Fiber.Kernel.Channel

open Fiber.Support

/-- In both orders the two operations are answered alike, and they end in
endpoints that are related by `R`. -/
structure OpsCommute (hooks : Placeholders) (w : World) (op op' : Op)
    (R : ChannelDispatcher → ChannelDispatcher → Prop) : Prop where
  reply : (perform hooks (perform hooks w op').1 op).2.reply =
    (perform hooks w op).2.reply
  reply' : (perform hooks (perform hooks w op).1 op').2.reply =
    (perform hooks w op').2.reply
  state : ∀ r, R ((perform hooks (perform hooks w op).1 op').1.get r)
    ((perform hooks (perform hooks w op').1 op).1.get r)

/-- Two endpoints that are each other's peer, unless they have none. -/
structure Ends (w : World) (a b : ℕ) : Prop where
  ne : a ≠ b
  peer_left : ∀ q, (w.get a).peer = some q → q = b
  peer_right : ∀ q, (w.get b).peer = some q → q = a

/-- Endpoints that differ in their maximal length only, by one at most. -/
def SameUpToCount (x y : ChannelDispatcher) : Prop :=
  x = { y with maxMessageCount := x.maxMessageCount } ∧
    y.maxMessageCount ≤ x.maxMessageCount ∧
    x.maxMessageCount ≤ y.maxMessageCount + 1

theorem SameUpToCount.refl (x : ChannelDispatcher) : SameUpToCount x x :=
  ⟨rfl, Nat.le_refl _, Nat.le_succ _⟩

/-! ## Operations that act on one endpoint -/

/-- The fields that decide which endpoint a read or a write acts on. -/
def SameLinks (w w' : World) : Prop :=
  ∀ r, (w'.get r).owner = (w.get r).owner ∧ (w'.get r).peer = (w.get r).peer

/-- With these links, `op` applies `f` to the endpoint `r`. -/
structure ActsOn (hooks : Placeholders) (w : World) (op : Op) (r : ℕ)
    (f : ChannelDispatcher → ChannelDispatcher × Reply) : Prop where
  state : ∀ w', SameLinks w w' →
    (perform hooks w' op).1 = w'.set r (f (w'.get r)).1
  reply : ∀ w', SameLinks w w' →
    (perform hooks w' op).2.reply = (f (w'.get r)).2
  links : ∀ x, (f x).1.owner = x.owner ∧ (f x).1.peer = x.peer

variable {hooks : Placeholders} {w : World} {op op' : Op} {r r' : ℕ}
  {f f' : ChannelDispatcher → ChannelDispatcher × Reply}

theorem SameLinks.refl (w : World) : SameLinks w w :=
  fun _ => ⟨rfl, rfl⟩

theorem ActsOn.sameLinks (h : ActsOn hooks w op r f) :
    SameLinks w (perform hooks w op).1 := by
  rw [h.state w (.refl w)]
  exact w.get_set_rel
    (R := fun x y => y.owner = x.owner ∧ y.peer = x.peer)
    (fun _ => ⟨rfl, rfl⟩) (h.links _)

/-- Operations on different endpoints commute. -/
theorem ActsOn.commute_of_ne (h : ActsOn hooks w op r f)
    (h' : ActsOn hooks w op' r' f') (hne : r ≠ r') :
    OpsCommute hooks w op op' Eq where
  reply := by
    rw [h.reply _ h'.sameLinks, h.reply w (.refl w), h'.state w (.refl w),
      w.get_set_of_ne hne]
  reply' := by
    rw [h'.reply _ h.sameLinks, h'.reply w (.refl w), h.state w (.refl w),
      w.get_set_of_ne hne.symm]
  state := by
    intro q
    rw [h.state _ h'.sameLinks, h'.state _ h.sameLinks,
      h.state w (.refl w), h'.state w (.refl w),
      w.get_set_of_ne hne, w.get_set_of_ne hne.symm, w.set_comm hne]

/-- Operations on one endpoint commute if what they apply to it does. -/
theorem ActsOn.commute_of_same
    {R : ChannelDispatcher → ChannelDispatcher → Prop} (hrefl : ∀ x, R x x)
    (h : ActsOn hooks w op r f) (h' : ActsOn hooks w op' r f')
    (hreply : (f (f' (w.get r)).1).2 = (f (w.get r)).2)
    (hreply' : (f' (f (w.get r)).1).2 = (f' (w.get r)).2)
    (hstate : R (f' (f (w.get r)).1).1 (f (f' (w.get r)).1).1) :
    OpsCommute hooks w op op' R where
  reply := by
    rw [h.reply _ h'.sameLinks, h.reply w (.refl w), h'.state w (.refl w),
      Store.get_set_self, hreply]
  reply' := by
    rw [h'.reply _ h.sameLinks, h'.reply w (.refl w), h.state w (.refl w),
      Store.get_set_self, hreply']
  state := by
    intro q
    rw [h.state _ h'.sameLinks, h'.state _ h.sameLinks,
      h.state w (.refl w), h'.state w (.refl w), Store.get_set_self,
      Store.get_set_self]
    by_cases hq : q = r
    · subst hq
      rwa [Store.get_set_self, Store.get_set_self]
    · rw [Store.get_set_of_ne _ hq, Store.get_set_of_ne _ hq,
        Store.get_set_of_ne _ hq, Store.get_set_of_ne _ hq]
      exact hrefl _

/-! ## Reads and writes act on one endpoint -/

/-- What a write that is not refused does to the peer. -/
def writeTo (hooks : Placeholders) (tlScopes : List ProcessContext)
    (msg : MessagePacket) (x : ChannelDispatcher) :
    ChannelDispatcher × Reply :=
  match x.matchingWaiter hooks msg with
  | some waiter =>
      ({ x with waiters := x.waiters.erase waiter }, .write (.ok .ok))
  | none =>
      let wrote := x.writeSelf hooks tlScopes msg
      (wrote.self, .write (wrote.result.map fun _ => .ok))

/-- What a read does to its endpoint. -/
def readFrom (hooks : Placeholders) (owner : FxKoid)
    (msgSize msgHandleCount : ℕ) (mayDiscard : Bool)
    (x : ChannelDispatcher) : ChannelDispatcher × Reply :=
  let got := x.read hooks owner msgSize msgHandleCount mayDiscard
  (got.self, .read got.result.1 got.result.2)

section

variable {a b : ℕ} {owner : FxKoid} {msg : MessagePacket}
  {tlScopes : List ProcessContext} {msgSize msgHandleCount : ℕ}
  {mayDiscard : Bool}

theorem writeTo_links (hooks : Placeholders)
    (tlScopes : List ProcessContext) (msg : MessagePacket)
    (x : ChannelDispatcher) :
    (writeTo hooks tlScopes msg x).1.owner = x.owner ∧
      (writeTo hooks tlScopes msg x).1.peer = x.peer := by
  unfold writeTo
  split
  · exact ⟨rfl, rfl⟩
  · simp [ChannelDispatcher.writeSelf_self]

theorem readFrom_links (x : ChannelDispatcher) :
    (readFrom hooks owner msgSize msgHandleCount mayDiscard x).1.owner =
        x.owner ∧
      (readFrom hooks owner msgSize msgHandleCount mayDiscard x).1.peer =
        x.peer := by
  simp only [readFrom, ChannelDispatcher.read]
  split
  · exact ⟨rfl, rfl⟩
  · split
    · exact ⟨rfl, rfl⟩
    · split
      · exact ⟨rfl, rfl⟩
      · split <;> exact ⟨rfl, rfl⟩

theorem read_actsOn (hooks : Placeholders) (w : World) (a : ℕ)
    (owner : FxKoid) (msgSize msgHandleCount : ℕ) (mayDiscard : Bool) :
    ActsOn hooks w (.read a owner msgSize msgHandleCount mayDiscard) a
      (readFrom hooks owner msgSize msgHandleCount mayDiscard) where
  state := fun _ _ => rfl
  reply := fun _ _ => rfl
  links := readFrom_links

/-- A refused write acts nowhere, hence on any endpoint. -/
theorem refused_actsOn {status : Status}
    (hwrite : ∀ w', SameLinks w w' →
      write hooks w' tlScopes a owner msg = (w', [], .ok status)) (r : ℕ) :
    ActsOn hooks w (.write tlScopes a owner msg) r
      (fun x => (x, .write (.ok status))) where
  state := by
    intro w' hw'
    simp only [perform, hwrite w' hw', Store.set_get_self]
  reply := by
    intro w' hw'
    simp only [perform, hwrite w' hw']
  links := fun _ => ⟨rfl, rfl⟩

/-- Every write is refused, or acts on the peer. -/
theorem write_actsOn (hooks : Placeholders) (w : World)
    (tlScopes : List ProcessContext) (a : ℕ) (owner : FxKoid)
    (msg : MessagePacket) :
    (∃ status, ∀ r, ActsOn hooks w (.write tlScopes a owner msg) r
      (fun x => (x, .write (.ok status)))) ∨
    ∃ q, (w.get a).peer = some q ∧
      ActsOn hooks w (.write tlScopes a owner msg) q
        (writeTo hooks tlScopes msg) := by
  by_cases howner : owner = (w.get a).owner
  · rcases hpeer : (w.get a).peer with _ | q
    · refine Or.inl ⟨.errPeerClosed, refused_actsOn fun w' hw' => ?_⟩
      exact write_of_no_peer (howner.trans (hw' a).1.symm)
        ((hw' a).2.trans hpeer) _ _
    · refine Or.inr ⟨q, rfl, ?_, ?_, writeTo_links _ _ _⟩ <;>
        intro w' hw' <;>
        have howner' := howner.trans (hw' a).1.symm <;>
        have hpeer' := (hw' a).2.trans hpeer <;>
        rcases hmatch : (w'.get q).matchingWaiter hooks msg with _ | waiter
      · rw [perform, write_of_no_waiter howner' hpeer' hmatch, writeTo,
          hmatch]
      · rw [perform, write_of_waiter howner' hpeer' hmatch, writeTo, hmatch]
      · rw [perform, write_of_no_waiter howner' hpeer' hmatch, writeTo,
          hmatch]
      · rw [perform, write_of_waiter howner' hpeer' hmatch, writeTo, hmatch]
  · refine Or.inl ⟨.errBadHandle, refused_actsOn fun w' hw' => ?_⟩
    exact write_of_owner_ne (fun h => howner (h.trans (hw' a).1)) _ _

/-! ## A write and a read on one endpoint -/

theorem matchingWaiter_congr {x y : ChannelDispatcher}
    (h : y.waiters = x.waiters) :
    y.matchingWaiter hooks msg = x.matchingWaiter hooks msg := by
  rw [ChannelDispatcher.matchingWaiter, ChannelDispatcher.matchingWaiter, h]

theorem writeTo_of_waiter (tlScopes : List ProcessContext)
    {x : ChannelDispatcher} {waiter : MessageWaiter}
    (h : x.matchingWaiter hooks msg = some waiter) :
    writeTo hooks tlScopes msg x =
      ({ x with waiters := x.waiters.erase waiter }, .write (.ok .ok)) := by
  rw [writeTo, h]

/-- A message that no waiter gets is queued, when there is a current
process. -/
theorem writeTo_of_no_waiter {x : ChannelDispatcher}
    {process : ProcessDispatcher}
    (hcurrent : ProcessDispatcher.getCurrent tlScopes = .ok process)
    (h : x.matchingWaiter hooks msg = none) :
    writeTo hooks tlScopes msg x =
      ({ x with
          messages := x.messages ++ [msg]
          signals := (hooks.raiseSignals x.signals channelReadable).1
          maxMessageCount :=
            max x.maxMessageCount (x.messages.length + 1) },
        .write (.ok .ok)) := by
  obtain ⟨logged, hlogged⟩ := x.logPending_of_getCurrent hcurrent
    (x.messages.length + 1)
  rw [writeTo, h]
  simp only [ChannelDispatcher.writeSelf_self,
    ChannelDispatcher.writeSelf_result, hlogged]
  rfl

theorem readFrom_of_owner_ne {x : ChannelDispatcher}
    (howner : owner ≠ x.owner) :
    readFrom hooks owner msgSize msgHandleCount mayDiscard x =
      (x, .read .errBadHandle none) := by
  rw [readFrom, x.read_of_owner_ne hooks howner]

theorem readFrom_of_kept {x : ChannelDispatcher} {head : MessagePacket}
    {rest : List MessagePacket} (howner : owner = x.owner)
    (hqueue : x.messages = head :: rest)
    (hfits : ¬ ChannelDispatcher.Fits head msgSize msgHandleCount) :
    readFrom hooks owner msgSize msgHandleCount false x =
      (x, .read .errBufferTooSmall none) := by
  rw [readFrom, howner, x.read_of_kept hooks hqueue hfits]

theorem readFrom_of_taken {x : ChannelDispatcher} {head : MessagePacket}
    {rest : List MessagePacket} (howner : owner = x.owner)
    (hqueue : x.messages = head :: rest)
    (htake : ChannelDispatcher.Fits head msgSize msgHandleCount ∨
      mayDiscard = true) :
    readFrom hooks owner msgSize msgHandleCount mayDiscard x =
      (x.shifted hooks rest,
        .read (if ChannelDispatcher.Fits head msgSize msgHandleCount
          then .ok else .errBufferTooSmall) (some head)) := by
  rw [readFrom, howner, x.read_of_taken hooks hqueue htake]

/-- Setting CHANNEL_READABLE undoes clearing it. -/
theorem raise_clear (signals : FxSignals) :
    signals &&& ~~~channelReadable ||| channelReadable =
      signals ||| channelReadable := by
  grind

variable {p : FxTxid → Bool}

/-- Shifting an endpoint before or after a write gives the same endpoint, up
to the maximal length. -/
theorem shifted_writeTo {x : ChannelDispatcher} {head : MessagePacket}
    {rest : List MessagePacket} (hqueue : x.messages = head :: rest) :
    let pushed : ChannelDispatcher :=
      { x with
        messages := x.messages ++ [msg]
        signals := x.signals ||| channelReadable
        maxMessageCount :=
          max x.maxMessageCount (x.messages.length + 1) }
    let left := x.shifted (.bitwise p) rest
    SameUpToCount (pushed.shifted (.bitwise p) (rest ++ [msg]))
      { left with
        messages := left.messages ++ [msg]
        signals := left.signals ||| channelReadable
        maxMessageCount :=
          max left.maxMessageCount (left.messages.length + 1) } := by
  intro pushed left
  have hsignals : left.signals ||| channelReadable =
      x.signals ||| channelReadable := by
    simp only [left, ChannelDispatcher.shifted_signals]
    split
    · exact raise_clear x.signals
    · rfl
  have hleft : left.messages = rest := by simp [left]
  rw [hsignals, hleft]
  simp only [left, pushed]
  rw [ChannelDispatcher.shifted_eq, ChannelDispatcher.shifted_signals,
    ChannelDispatcher.shifted_eq _ x]
  simp only [List.append_eq_nil_iff, reduceCtorEq, and_false, if_false,
    SameUpToCount, hqueue, List.length_cons, true_and]
  omega

/-- A write keeps the head of a non-empty queue. -/
theorem writeTo_messages (hooks : Placeholders)
    (tlScopes : List ProcessContext) (msg : MessagePacket)
    {x : ChannelDispatcher} {head : MessagePacket}
    {rest : List MessagePacket} (hqueue : x.messages = head :: rest) :
    ∃ rest', (writeTo hooks tlScopes msg x).1.messages = head :: rest' := by
  unfold writeTo
  split
  · exact ⟨rest, hqueue⟩
  · refine ⟨rest ++ [msg], ?_⟩
    simp only [ChannelDispatcher.writeSelf_self, hqueue, List.cons_append]

/-- A read that takes no message does so before and after a write. -/
theorem readFrom_writeTo_of_same {x : ChannelDispatcher} {reply : Reply}
    (hread : readFrom hooks owner msgSize msgHandleCount mayDiscard x =
      (x, reply))
    (hread' : readFrom hooks owner msgSize msgHandleCount mayDiscard
      (writeTo hooks tlScopes msg x).1 =
        ((writeTo hooks tlScopes msg x).1, reply))
    (ha : ActsOn hooks w op r (writeTo hooks tlScopes msg))
    (hb : ActsOn hooks w op' r
      (readFrom hooks owner msgSize msgHandleCount mayDiscard))
    (hx : w.get r = x) : OpsCommute hooks w op op' SameUpToCount := by
  refine ha.commute_of_same SameUpToCount.refl hb ?_ ?_ ?_ <;> rw [hx]
  · rw [hread]
  · rw [hread', hread]
  · rw [hread', hread]
    exact .refl _

theorem matchingWaiter_shifted (x : ChannelDispatcher)
    (rest : List MessagePacket) :
    (x.shifted hooks rest).matchingWaiter hooks msg =
      x.matchingWaiter hooks msg := by
  refine matchingWaiter_congr ?_
  rw [ChannelDispatcher.shifted_eq]

/-- Shifting the queue and removing a waiter commute. -/
theorem shifted_waiters (x : ChannelDispatcher)
    (waiters : List MessageWaiter) (rest : List MessagePacket) :
    ({ x with waiters := waiters } : ChannelDispatcher).shifted hooks rest =
      { x.shifted hooks rest with waiters := waiters } := by
  unfold ChannelDispatcher.shifted
  split <;> rfl

/-- A read that takes the head commutes with a write if writing and shifting
do. -/
theorem commute_of_taken {head : MessagePacket} {rest : List MessagePacket}
    (rest' : List MessagePacket) (howner : owner = (w.get r).owner)
    (hqueue : (w.get r).messages = head :: rest)
    (hqueue' : (writeTo hooks tlScopes msg (w.get r)).1.messages =
      head :: rest')
    (htake : ChannelDispatcher.Fits head msgSize msgHandleCount ∨
      mayDiscard = true)
    (hreply : (writeTo hooks tlScopes msg ((w.get r).shifted hooks rest)).2 =
      (writeTo hooks tlScopes msg (w.get r)).2)
    (hstate : SameUpToCount
      ((writeTo hooks tlScopes msg (w.get r)).1.shifted hooks rest')
      (writeTo hooks tlScopes msg ((w.get r).shifted hooks rest)).1)
    (ha : ActsOn hooks w op r (writeTo hooks tlScopes msg))
    (hb : ActsOn hooks w op' r
      (readFrom hooks owner msgSize msgHandleCount mayDiscard)) :
    OpsCommute hooks w op op' SameUpToCount := by
  have howner' :=
    howner.trans (writeTo_links hooks tlScopes msg (w.get r)).1.symm
  refine ha.commute_of_same SameUpToCount.refl hb ?_ ?_ ?_ <;>
    rw [readFrom_of_taken howner hqueue htake]
  · exact hreply
  · rw [readFrom_of_taken howner' hqueue' htake]
  · rw [readFrom_of_taken howner' hqueue' htake]
    exact hstate

/-- On an endpoint with a non-empty queue a write and a read commute. -/
theorem write_read_commute {process : ProcessDispatcher}
    (hcurrent : ProcessDispatcher.getCurrent tlScopes = .ok process)
    (hnonempty : (w.get r).messages ≠ [])
    (ha : ActsOn (.bitwise p) w op r (writeTo (.bitwise p) tlScopes msg))
    (hb : ActsOn (.bitwise p) w op' r (readFrom (.bitwise p) owner msgSize
      msgHandleCount mayDiscard)) :
    OpsCommute (.bitwise p) w op op' SameUpToCount := by
  obtain ⟨head, rest, hqueue⟩ := List.exists_cons_of_ne_nil hnonempty
  obtain ⟨rest', hqueue'⟩ :=
    writeTo_messages (.bitwise p) tlScopes msg hqueue
  have howner' := (writeTo_links (.bitwise p) tlScopes msg (w.get r)).1
  by_cases howner : owner = (w.get r).owner
  · by_cases htake : ChannelDispatcher.Fits head msgSize msgHandleCount ∨
        mayDiscard = true
    · rcases hmatch : (w.get r).matchingWaiter (.bitwise p) msg with
        _ | waiter
      · have hwrite := writeTo_of_no_waiter hcurrent hmatch
        have hlater := writeTo_of_no_waiter hcurrent
          ((matchingWaiter_shifted _ rest).trans hmatch)
        refine commute_of_taken (rest ++ [msg]) howner hqueue ?_ htake ?_ ?_
          ha hb
        · rw [hwrite, hqueue, List.cons_append]
        · rw [hwrite, hlater]
        · rw [hwrite, hlater]
          exact shifted_writeTo hqueue
      · have hwrite := writeTo_of_waiter tlScopes hmatch
        have hlater := writeTo_of_waiter tlScopes
          ((matchingWaiter_shifted _ rest).trans hmatch)
        refine commute_of_taken rest howner hqueue ?_ htake ?_ ?_ ha hb
        · rw [hwrite, hqueue]
        · rw [hwrite, hlater]
        · rw [hwrite, hlater, shifted_waiters]
          have hwaiters : ((w.get r).shifted (.bitwise p) rest).waiters =
              (w.get r).waiters := by
            rw [ChannelDispatcher.shifted_eq]
          rw [hwaiters]
          exact .refl _
    · obtain ⟨hfits, hdiscard⟩ := not_or.mp htake
      obtain rfl : mayDiscard = false := by simpa using hdiscard
      exact readFrom_writeTo_of_same
        (readFrom_of_kept howner hqueue hfits)
        (readFrom_of_kept (howner.trans howner'.symm) hqueue' hfits)
        ha hb rfl
  · exact readFrom_writeTo_of_same (readFrom_of_owner_ne howner)
      (readFrom_of_owner_ne fun h => howner (h.trans howner')) ha hb rfl

end

/-! ## The channel -/

theorem OpsCommute.mono {R R' : ChannelDispatcher → ChannelDispatcher → Prop}
    (h : OpsCommute hooks w op op' R) (hle : ∀ x y, R x y → R' x y) :
    OpsCommute hooks w op op' R' where
  reply := h.reply
  reply' := h.reply'
  state := fun r => hle _ _ (h.state r)

/-- In every channel: a write on one end commutes with a read on the other end
if that has a message, up to the maximal length; and two operations that act
on different queues commute, without any change. -/
theorem reads_and_writes_commute (p : FxTxid → Bool) (w : World) (a b : ℕ)
    (hends : Ends w a b) (tlScopes tlScopes' : List ProcessContext)
    (process : ProcessDispatcher)
    (hcurrent : ProcessDispatcher.getCurrent tlScopes = .ok process)
    (owner owner' : FxKoid) (msg msg' : MessagePacket)
    (msgSize msgHandleCount msgSize' msgHandleCount' : ℕ)
    (mayDiscard mayDiscard' : Bool) :
    ((w.get b).messages ≠ [] →
      OpsCommute (.bitwise p) w (.write tlScopes a owner msg)
        (.read b owner' msgSize msgHandleCount mayDiscard)
        SameUpToCount) ∧
    OpsCommute (.bitwise p) w (.write tlScopes a owner msg)
      (.write tlScopes' b owner' msg') Eq ∧
    OpsCommute (.bitwise p) w
      (.read a owner msgSize msgHandleCount mayDiscard)
      (.read b owner' msgSize' msgHandleCount' mayDiscard') Eq ∧
    OpsCommute (.bitwise p) w (.write tlScopes a owner msg)
      (.read a owner' msgSize msgHandleCount mayDiscard) Eq := by
  have hread := read_actsOn (.bitwise p) w
  have hwrite := write_actsOn (.bitwise p) w
  refine ⟨fun hnonempty => ?_, ?_, ?_, ?_⟩
  · rcases hwrite tlScopes a owner msg with ⟨status, h⟩ | ⟨q, hq, h⟩
    · refine ((h (b + 1)).commute_of_ne
        (hread b owner' msgSize msgHandleCount mayDiscard)
        (Nat.succ_ne_self b)).mono ?_
      rintro x - rfl
      exact .refl x
    · obtain rfl := hends.peer_left q hq
      exact write_read_commute hcurrent hnonempty h
        (hread q owner' msgSize msgHandleCount mayDiscard)
  · rcases hwrite tlScopes' b owner' msg' with
      ⟨status', h'⟩ | ⟨q', hq', h'⟩
    · rcases hwrite tlScopes a owner msg with ⟨status, h⟩ | ⟨q, -, h⟩
      · exact (h 0).commute_of_ne (h' 1) (by decide)
      · exact h.commute_of_ne (h' (q + 1)) (Nat.succ_ne_self q).symm
    · rcases hwrite tlScopes a owner msg with ⟨status, h⟩ | ⟨q, hq, h⟩
      · exact (h (q' + 1)).commute_of_ne h' (Nat.succ_ne_self q')
      · refine h.commute_of_ne h' ?_
        rw [hends.peer_left q hq, hends.peer_right q' hq']
        exact hends.ne.symm
  · exact (hread a owner msgSize msgHandleCount mayDiscard).commute_of_ne
      (hread b owner' msgSize' msgHandleCount' mayDiscard') hends.ne
  · have hr := hread a owner' msgSize msgHandleCount mayDiscard
    rcases hwrite tlScopes a owner msg with ⟨status, h⟩ | ⟨q, hq, h⟩
    · exact (h (a + 1)).commute_of_ne hr (Nat.succ_ne_self a)
    · refine h.commute_of_ne hr ?_
      rw [hends.peer_left q hq]
      exact hends.ne.symm

/-- A channel with one message, on which the read empties the queue. -/
theorem reads_and_writes_commute_single :
    let scopes : List ProcessContext := [⟨⟨0, "userboot"⟩⟩, ⟨⟨1, "test0"⟩⟩]
    let hooks := Placeholders.bitwise fun _ => false
    let w := (perform hooks (create World.init).1
      (.write scopes 0 0 ⟨0, 0, 0, 0⟩)).1
    (w.get 1).messages = [⟨0, 0, 0, 0⟩] ∧
      OpsCommute hooks w (.write scopes 0 0 ⟨1, 0, 0, 0⟩)
        (.read 1 0 0 0 false) SameUpToCount := by
  intro scopes hooks w
  have hleft : (w.get 0).peer = some 1 := by decide
  have hright : (w.get 1).peer = some 0 := by decide
  have hends : Ends w 0 1 :=
    ⟨by decide, fun _ hq => (Option.some.inj (hleft.symm.trans hq)).symm,
      fun _ hq => (Option.some.inj (hright.symm.trans hq)).symm⟩
  have hqueue : (w.get 1).messages = [⟨0, 0, 0, 0⟩] := by decide
  refine ⟨hqueue, (reads_and_writes_commute (fun _ => false) w 0 1 hends
    scopes scopes ⟨1, "test0"⟩ rfl 0 0 ⟨1, 0, 0, 0⟩ ⟨2, 0, 0, 0⟩ 0 0 0 0
    false false).1 ?_⟩
  rw [hqueue]
  exact List.cons_ne_nil _ _

end Fiber.Kernel.Channel
