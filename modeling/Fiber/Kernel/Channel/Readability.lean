import Fiber.Kernel.Channel.Links
import Mathlib.Data.List.Induction
import Mathlib.Order.Bounds.Basic

/-!
# Readability

Here `raiseSignals` and `clearSignals` set and clear bits, and `raiseSignals`
returns the previous signals.  The signal CHANNEL_READABLE then always says
whether the queue is non-empty, also after writes whose logging throws, and
observers are notified exactly when it goes up.
-/

namespace Fiber.Kernel

/-- The signal helpers as bit operations, with any predicate for kernel
generated ids. -/
def Placeholders.bitwise (isKernelGeneratedTxid : FxTxid → Bool) :
    Placeholders where
  isKernelGeneratedTxid := isKernelGeneratedTxid
  raiseSignals := fun stored signals => (stored ||| signals, stored)
  clearSignals := fun stored signals => stored &&& ~~~signals

namespace Channel

open Fiber.Support

/-- CHANNEL_READABLE is among the signals. -/
def IsReadable (signals : FxSignals) : Prop := signals &&& channelReadable ≠ 0

instance (signals : FxSignals) : Decidable (IsReadable signals) :=
  inferInstanceAs (Decidable (_ ≠ _))

theorem isReadable_raise (signals : FxSignals) :
    IsReadable (signals ||| channelReadable) := by
  have h : (signals ||| channelReadable) &&& channelReadable =
      channelReadable := by
    grind
  rw [IsReadable, h]
  decide

theorem not_isReadable_clear (signals : FxSignals) :
    ¬ IsReadable (signals &&& ~~~channelReadable) := by
  rw [IsReadable, BitVec.and_assoc]
  simp

/-- An endpoint is readable exactly if its queue is non-empty. -/
def Readable (w : World) : Prop :=
  ∀ r, IsReadable (w.get r).signals ↔ (w.get r).messages ≠ []

/-- The maximum is at least the current length of the queue. -/
def Counted (w : World) : Prop :=
  ∀ r, (w.get r).messages.length ≤ (w.get r).maxMessageCount

/-- The signals with which an operation notifies the observers of `r`. -/
def notifications (r : ℕ) (answer : Answer) : List FxSignals :=
  answer.effects.filterMap fun effect =>
    match effect with
    | (q, .notifyObservers signals) => if q = r then some signals else none
    | _ => none

/-- The operation takes the queue of `r` from empty to non-empty. -/
def Fills (r : ℕ) (w w' : World) : Prop :=
  (w.get r).messages = [] ∧ (w'.get r).messages ≠ []

instance (r : ℕ) (w w' : World) : Decidable (Fills r w w') :=
  inferInstanceAs (Decidable (_ ∧ _))

variable {p : FxTxid → Bool} {hooks : Placeholders} {w w' : World} {op : Op}
  {answer : Answer}

/-- What an operation does to the queue-related fields of one endpoint: it
keeps them, appends the message that it writes, or shifts one off. -/
inductive FieldChange (hooks : Placeholders) (op : Op)
    (x y : ChannelDispatcher) : Prop
  | same (hmessages : y.messages = x.messages)
      (hsignals : y.signals = x.signals)
      (hmax : y.maxMessageCount = x.maxMessageCount)
  | pushed (tlScopes : List ProcessContext) (this : ℕ) (owner : FxKoid)
      (msg : MessagePacket) (hop : op = .write tlScopes this owner msg)
      (hmessages : y.messages = x.messages ++ [msg])
      (hsignals : y.signals = (hooks.raiseSignals x.signals channelReadable).1)
      (hmax : y.maxMessageCount =
        max x.maxMessageCount (x.messages.length + 1))
  | shifted (msg : MessagePacket) (rest : List MessagePacket)
      (hqueue : x.messages = msg :: rest) (hmessages : y.messages = rest)
      (hsignals : y.signals =
        if rest = [] then hooks.clearSignals x.signals channelReadable
        else x.signals)
      (hmax : y.maxMessageCount = x.maxMessageCount)

theorem Transition.fieldChange (ht : Transition hooks w op w' answer)
    (hlinked : Linked w) (r : ℕ) :
    FieldChange hooks op (w.get r) (w'.get r) := by
  have hset : ∀ (q : ℕ) (x : ChannelDispatcher),
      FieldChange hooks op (w.get q) x →
      FieldChange hooks op (w.get r) ((w.set q x).get r) :=
    fun _ _ hx => w.get_set_rel (fun _ => .same rfl rfl rfl) hx r
  cases ht with
  | noObject | writeBadHandle | writePeerClosed | readBadHandle | readEmpty
  | readKept => exact .same rfl rfl rfl
  | create =>
      obtain ⟨peer, hget⟩ := hlinked.create_get_eq r
      rw [hget]
      exact .same rfl rfl rfl
  | writeDelivered => exact hset _ _ (.same rfl rfl rfl)
  | @writeQueued tlScopes this _ owner msg =>
      apply hset
      rw [ChannelDispatcher.writeSelf_self]
      exact .pushed tlScopes this owner msg rfl rfl rfl rfl
  | @readTaken _ _ _ _ _ msg rest _ _ hqueue =>
      apply hset
      refine .shifted msg rest hqueue ?_ ?_ ?_
      · rw [ChannelDispatcher.shifted_messages]
      · rw [ChannelDispatcher.shifted_signals]
      · rw [ChannelDispatcher.shifted_eq]
  | setOwner =>
      apply hset
      rw [ChannelDispatcher.setOwner_eq]
      exact .same rfl rfl rfl
  | onHandleCountZero => exact hset _ _ (.same rfl rfl rfl)
  | incrementHandleCount => exact hset _ _ (.same rfl rfl rfl)
  | decrementHandleCount => exact hset _ _ (.same rfl rfl rfl)

theorem FieldChange.readable {x y : ChannelDispatcher}
    (h : FieldChange (.bitwise p) op x y)
    (hx : IsReadable x.signals ↔ x.messages ≠ []) :
    IsReadable y.signals ↔ y.messages ≠ [] := by
  cases h with
  | same hmessages hsignals => rw [hmessages, hsignals, hx]
  | pushed _ _ _ msg _ hmessages hsignals =>
      rw [hmessages, hsignals]
      simp only [Placeholders.bitwise, isReadable_raise, true_iff]
      simp
  | shifted msg rest hqueue hmessages hsignals =>
      rw [hmessages, hsignals]
      by_cases hrest : rest = []
      · simp [hrest, Placeholders.bitwise, not_isReadable_clear]
      · rw [if_neg hrest, hx, hqueue]
        simp [hrest]

theorem FieldChange.maxMessageCount_eq {x y : ChannelDispatcher}
    (h : FieldChange hooks op x y)
    (hx : x.messages.length ≤ x.maxMessageCount) :
    y.maxMessageCount = max x.maxMessageCount y.messages.length := by
  cases h with
  | same hmessages _ hmax =>
      rw [hmessages, hmax]
      omega
  | pushed _ _ _ msg _ hmessages _ hmax =>
      rw [hmessages, hmax]
      simp
  | shifted msg rest hqueue hmessages _ hmax =>
      rw [hqueue, List.length_cons] at hx
      rw [hmessages, hmax]
      omega

theorem FieldChange.exists_write {x y : ChannelDispatcher}
    (h : FieldChange hooks op x y) (hx : x.messages = [])
    (hy : y.messages ≠ []) :
    ∃ tlScopes this owner msg, op = .write tlScopes this owner msg := by
  cases h with
  | same hmessages => exact absurd (hmessages.trans hx) hy
  | pushed tlScopes this owner msg hop =>
      exact ⟨tlScopes, this, owner, msg, hop⟩
  | shifted msg rest hqueue => exact absurd (hx.symm.trans hqueue) (by simp)

/-- Only a write makes an empty queue non-empty. -/
theorem Transition.exists_write_of_fills (ht : Transition hooks w op w' answer)
    (hlinked : Linked w) {r : ℕ} (hfills : Fills r w w') :
    ∃ tlScopes this owner msg, op = .write tlScopes this owner msg :=
  (ht.fieldChange hlinked r).exists_write hfills.1 hfills.2

/-! ## Notifications -/

/-- The calls of one endpoint, as seen from another one. -/
theorem notifications_of_ne {q r : ℕ} (hq : q ≠ r) (reply : Reply)
    (effects : List Effect) :
    notifications r ⟨reply, effects.map (q, ·)⟩ = [] := by
  simp only [notifications, List.filterMap_map]
  apply List.filterMap_eq_nil_iff.mpr
  intro effect _
  cases effect <;> simp [hq]

/-- `writeSelf` notifies exactly on an empty queue, with READABLE raised. -/
theorem writeSelf_notifications (self : ChannelDispatcher)
    (hself : IsReadable self.signals ↔ self.messages ≠ [])
    (tlScopes : List ProcessContext) (msg : MessagePacket) (r : ℕ)
    (reply : Reply) :
    notifications r ⟨reply,
      (self.writeSelf (.bitwise p) tlScopes msg).effects.map (r, ·)⟩ =
        if self.messages = [] then [self.signals ||| channelReadable]
        else [] := by
  rw [ChannelDispatcher.writeSelf_effects]
  by_cases hempty : self.messages = []
  · -- A queue of length one is far below the warning threshold.
    have hshort : self.messages.length + 1 < kWarnPendingMessageCount := by
      rw [hempty]
      decide
    have hlow : self.signals &&& channelReadable = 0 := by
      by_contra h
      exact hself.mp h hempty
    rw [self.logPending_of_short hshort]
    simp [hempty, hlow, Placeholders.bitwise, notifications]
  · have hhigh : self.signals &&& channelReadable ≠ 0 := hself.mpr hempty
    cases hlogged :
        self.logPending tlScopes (self.messages.length + 1) with
    | error e => simp [hempty, notifications]
    | ok logged =>
        have hlog := self.logPending_consoleLog hlogged
        simp only [Placeholders.bitwise, hhigh, if_false, hempty,
          notifications, List.filterMap_map]
        apply List.filterMap_eq_nil_iff.mpr
        intro effect heffect
        obtain ⟨format, koid, pname, rfl⟩ := hlog effect heffect
        rfl

theorem Transition.notifications_eq
    (ht : Transition (.bitwise p) w op w' answer) (hlinked : Linked w)
    (hreadable : Readable w) (r : ℕ) :
    notifications r answer =
      if Fills r w w' then [(w.get r).signals ||| channelReadable]
      else [] := by
  have hquiet : notifications r answer = [] → ¬ Fills r w w' →
      notifications r answer =
        if Fills r w w' then [(w.get r).signals ||| channelReadable]
        else [] := by
    intro hnone hfills
    rw [hnone, if_neg hfills]
  have hwrite : (∀ tlScopes this owner msg,
      op ≠ .write tlScopes this owner msg) → ¬ Fills r w w' := by
    intro hop hfills
    obtain ⟨tlScopes, this, owner, msg, rfl⟩ :=
      ht.exists_write_of_fills hlinked hfills
    exact hop tlScopes this owner msg rfl
  cases ht with
  | noObject | writeBadHandle | writePeerClosed =>
      exact hquiet rfl fun hfills => hfills.2 hfills.1
  | writeDelivered =>
      refine hquiet rfl fun hfills => hfills.2 ?_
      rw [Store.get_set]
      split
      next hr => exact hr ▸ hfills.1
      next => exact hfills.1
  | @writeQueued tlScopes this peer owner msg =>
      by_cases hr : peer = r
      · subst peer
        rw [writeSelf_notifications _ (hreadable r)]
        have hfills : Fills r w (w.set r
            ((w.get r).writeSelf (.bitwise p) tlScopes msg).self) ↔
            (w.get r).messages = [] := by
          simp [Fills, ChannelDispatcher.writeSelf_self]
        simp only [hfills]
      · refine hquiet (notifications_of_ne hr _ _) fun hfills => hfills.2 ?_
        rw [w.get_set_of_ne (Ne.symm hr)]
        exact hfills.1
  | create | readBadHandle | readEmpty | readKept | readTaken | setOwner
  | incrementHandleCount | decrementHandleCount =>
      exact hquiet rfl (hwrite (by simp))
  | onHandleCountZero =>
      refine hquiet ?_ (hwrite (by simp))
      simp [notifications, List.filterMap_map]

/-! ## Reachable stores -/

/-- The invariant behind readability. -/
structure Observable (w : World) : Prop where
  linked : Linked w
  readable : Readable w
  counted : Counted w

theorem Observable.init : Observable World.init where
  linked := Linked.init
  readable := fun _ => by simp [World.init, IsReadable]
  counted := fun _ => Nat.le_refl _

theorem observable_preserved (p : FxTxid → Bool) :
    (machine (.bitwise p)).Preserves Observable := by
  intro w op h
  have ht := step_transition (.bitwise p) w op
  constructor
  · exact ht.linked h.linked
  · intro r
    exact (ht.fieldChange h.linked r).readable (h.readable r)
  · intro r
    have hmax :=
      (ht.fieldChange h.linked r).maxMessageCount_eq (h.counted r)
    exact hmax ▸ Nat.le_max_right _ _

/-- The maximum never decreases, so it bounds every earlier length. -/
theorem maxMessageCount_mono (p : FxTxid → Bool) {w : World}
    (h : Observable w) (r : ℕ) (ops : List Op) :
    (w.get r).maxMessageCount ≤
      (((machine (.bitwise p)).exec w ops).get r).maxMessageCount := by
  refine (observable_preserved p).exec_rel
    (R := fun v v' =>
      (v.get r).maxMessageCount ≤ (v'.get r).maxMessageCount)
    (fun _ => Nat.le_refl _) (fun _ _ _ => Nat.le_trans) ?_ h ops
  intro v op hv
  have hmax := ((step_transition (.bitwise p) v op).fieldChange hv.linked
    r).maxMessageCount_eq (hv.counted r)
  exact hmax ▸ Nat.le_max_left _ _

/-- The maximum has been the length of the queue at some time. -/
theorem exists_length_eq_maxMessageCount (p : FxTxid → Bool) (r : ℕ)
    (ops : List Op) :
    let M := machine (.bitwise p)
    ∃ v ∈ M.visited World.init ops,
      (v.get r).messages.length =
        ((M.exec World.init ops).get r).maxMessageCount := by
  intro M
  induction ops using List.reverseRecOn with
  | nil => exact ⟨World.init, List.mem_cons_self, rfl⟩
  | append_singleton ops op ih =>
      have hv := (observable_preserved p).exec Observable.init ops
      have hmax := ((step_transition (.bitwise p) (M.exec World.init ops)
        op).fieldChange hv.linked r).maxMessageCount_eq (hv.counted r)
      have hlast : M.exec World.init (ops ++ [op]) =
          (M.step (M.exec World.init ops) op).1 := M.exec_append _ _ _
      rw [hlast]
      rcases Nat.le_total
          ((M.step (M.exec World.init ops) op).1.get r).messages.length
          ((M.exec World.init ops).get r).maxMessageCount with hle | hle
      · obtain ⟨v, hv, hlength⟩ := ih
        obtain ⟨front, hfront, rfl⟩ := M.mem_visited_iff.mp hv
        refine ⟨M.exec World.init front, M.mem_visited_iff.mpr
          ⟨front, hfront.trans (List.prefix_append _ _), rfl⟩, ?_⟩
        exact hlength.trans (hmax.trans (Nat.max_eq_left hle)).symm
      · refine ⟨M.exec World.init (ops ++ [op]), M.mem_visited_iff.mpr
          ⟨ops ++ [op], List.prefix_refl _, rfl⟩, ?_⟩
        rw [hlast]
        exact (hmax.trans (Nat.max_eq_right hle)).symm

/-- The readability invariant.  After every run, also one with writes that
throw: an endpoint is readable exactly if its queue is non-empty; its maximum
is the greatest length its queue has ever had; and its observers are notified
once, with READABLE, by each operation that fills its empty queue, all of which
are writes, and by no other operation. -/
theorem readability_invariant (p : FxTxid → Bool) (ops : List Op) :
    let M := machine (.bitwise p)
    let w := M.exec World.init ops
    (∀ r, IsReadable (w.get r).signals ↔ (w.get r).messages ≠ []) ∧
    (∀ r, IsGreatest
      {n | ∃ v ∈ M.visited World.init ops, (v.get r).messages.length = n}
      (w.get r).maxMessageCount) ∧
    ∀ e ∈ M.trace World.init ops, ∀ r,
      (Fills r e.before e.after →
        (∃ tlScopes this owner msg,
          e.action = .write tlScopes this owner msg) ∧
        ∃ signals, notifications r e.reply = [signals] ∧
          IsReadable signals) ∧
      (¬ Fills r e.before e.after → notifications r e.reply = []) := by
  intro M w
  have hw : Observable w := (observable_preserved p).exec Observable.init ops
  refine ⟨hw.readable, fun r => ⟨?_, ?_⟩, ?_⟩
  · exact exists_length_eq_maxMessageCount p r ops
  · rintro n ⟨v, hv, rfl⟩
    obtain ⟨front, ⟨rest, rfl⟩, rfl⟩ := M.mem_visited_iff.mp hv
    have hv : Observable (M.exec World.init front) :=
      (observable_preserved p).exec Observable.init front
    have hmono := maxMessageCount_mono p hv r rest
    rw [← Machine.exec_append] at hmono
    exact (hv.counted r).trans hmono
  · intro e he r
    obtain ⟨v, op, -, hv, rfl⟩ :=
      (observable_preserved p).event_of_mem Observable.init he
    have ht := step_transition (.bitwise p) v op
    have hnotify := ht.notifications_eq hv.linked hv.readable r
    constructor
    · intro hfills
      refine ⟨ht.exists_write_of_fills hv.linked hfills,
        (v.get r).signals ||| channelReadable, ?_, isReadable_raise _⟩
      exact hnotify.trans (if_pos hfills)
    · intro hfills
      exact hnotify.trans (if_neg hfills)

end Channel
end Fiber.Kernel
