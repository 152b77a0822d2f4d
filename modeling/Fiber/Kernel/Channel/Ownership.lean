import Fiber.Kernel.Channel.Links

/-!
# Ownership of endpoints

An endpoint answers reads and writes of its owner only.  The owner is the last
valid koid given to `set_owner`, and a call with another owner argument is
refused without a trace: erasing all such calls from a run leaves every other
event, and the final store, as they were.
-/

namespace Fiber.Kernel.Channel

open Fiber.Support

/-- The operation is a read or write whose owner argument is not the owner of
the endpoint it is called on. -/
def Mismatched (w : World) : Op → Prop
  | .write _ this owner _ => w.Allocated this ∧ owner ≠ (w.get this).owner
  | .read this owner _ _ _ => w.Allocated this ∧ owner ≠ (w.get this).owner
  | _ => False

instance (w : World) (op : Op) : Decidable (Mismatched w op) :=
  match op with
  | .write _ _ _ _ => inferInstanceAs (Decidable (_ ∧ _))
  | .read _ _ _ _ _ => inferInstanceAs (Decidable (_ ∧ _))
  | .create => inferInstanceAs (Decidable False)
  | .setOwner _ _ => inferInstanceAs (Decidable False)
  | .onHandleCountZero _ => inferInstanceAs (Decidable False)
  | .incrementHandleCount _ => inferInstanceAs (Decidable False)
  | .decrementHandleCount _ => inferInstanceAs (Decidable False)

/-- The answer ERR_BAD_HANDLE, with a null message for a read. -/
def badHandleAnswer : Op → Answer
  | .read _ _ _ _ _ => ⟨.read .errBadHandle none, []⟩
  | _ => ⟨.write (.ok .errBadHandle), []⟩

variable {hooks : Placeholders} {w w' : World} {op : Op} {answer : Answer}

theorem Transition.of_mismatched (ht : Transition hooks w op w' answer)
    (h : Mismatched w op) : w' = w ∧ answer = badHandleAnswer op := by
  cases ht with
  | noObject hop hfree =>
      cases op with
      | write tlScopes this owner msg =>
          obtain rfl := Option.some.inj hop
          exact absurd h.1 hfree
      | read this owner msgSize msgHandleCount mayDiscard =>
          obtain rfl := Option.some.inj hop
          exact absurd h.1 hfree
      | _ => exact h.elim
  | writeBadHandle => exact ⟨rfl, rfl⟩
  | readBadHandle => exact ⟨rfl, rfl⟩
  | writePeerClosed _ howner | writeDelivered _ howner
  | writeQueued _ howner => exact absurd howner h.2
  | readEmpty _ howner | readKept _ howner | readTaken _ howner =>
      exact absurd howner h.2
  | create | setOwner | onHandleCountZero | incrementHandleCount
  | decrementHandleCount => exact h.elim

/-- A mismatched call changes nothing and is refused. -/
theorem event_of_mismatched (hooks : Placeholders) (h : Mismatched w op) :
    let e := (machine hooks).event w op
    e.reply = badHandleAnswer op ∧ e.after = e.before := by
  obtain ⟨hstore, hanswer⟩ := (step_transition hooks w op).of_mismatched h
  exact ⟨hanswer, hstore⟩

/-! ## The owner history -/

/-- The valid koid that an operation gives to the owner of `r`. -/
def ownerGiven (r : ℕ) (w : World) : Op → Option FxKoid
  | .setOwner this newOwner =>
      if this = r ∧ w.Allocated this ∧ newOwner ≠ fxKoidInvalid then
        some newOwner
      else none
  | _ => none

theorem ownerGiven_eq_some {r : ℕ} {w : World} {op : Op} {k : FxKoid}
    (h : ownerGiven r w op = some k) :
    op = .setOwner r k ∧ k ≠ fxKoidInvalid := by
  cases op with
  | setOwner this newOwner =>
      by_cases hgiven :
          this = r ∧ w.Allocated this ∧ newOwner ≠ fxKoidInvalid
      · rw [ownerGiven, if_pos hgiven] at h
        obtain ⟨rfl, -, hvalid⟩ := hgiven
        obtain rfl := Option.some.inj h
        exact ⟨rfl, hvalid⟩
      · rw [ownerGiven, if_neg hgiven] at h
        cases h
  | _ => cases h

/-- The valid koids given to the owner of `r`, oldest first. -/
def ownersGiven (r : ℕ) (events : List (Event World Op Answer)) :
    List FxKoid :=
  events.filterMap fun e => ownerGiven r e.before e.action

theorem Transition.owner_eq (ht : Transition hooks w op w' answer)
    (hlinked : Linked w) (r : ℕ) :
    (w'.get r).owner = (ownerGiven r w op).getD (w.get r).owner := by
  have hset : ∀ (q : ℕ) (x : ChannelDispatcher),
      x.owner = (w.get q).owner →
      ((w.set q x).get r).owner = (w.get r).owner :=
    fun _ _ hx => w.get_set_rel (R := fun x y => y.owner = x.owner)
      (fun _ => rfl) hx r
  cases ht with
  | noObject hop hfree =>
      cases op with
      | setOwner this newOwner =>
          obtain rfl := Option.some.inj hop
          simp [ownerGiven, hfree]
      | _ => rfl
  | create =>
      obtain ⟨peer, hget⟩ := hlinked.create_get_eq r
      rw [hget]
      rfl
  | @setOwner this newOwner halloc =>
      by_cases hr : r = this
      · subst r
        rw [Store.get_set_self, ChannelDispatcher.setOwner_owner]
        by_cases hvalid : newOwner = fxKoidInvalid <;>
          simp [ownerGiven, halloc, hvalid]
      · rw [w.get_set_of_ne hr]
        simp [ownerGiven, Ne.symm hr]
  | writeBadHandle | writePeerClosed | readBadHandle | readEmpty
  | readKept => rfl
  | writeDelivered => exact hset _ _ rfl
  | writeQueued => exact hset _ _ (by rw [ChannelDispatcher.writeSelf_self])
  | readTaken => exact hset _ _ (by rw [ChannelDispatcher.shifted_eq])
  | onHandleCountZero => exact hset _ _ rfl
  | incrementHandleCount => exact hset _ _ rfl
  | decrementHandleCount => exact hset _ _ rfl

/-- Along a run the owner is the last valid koid given to it, or the owner it
had at the start. -/
theorem exec_owner_eq (hooks : Placeholders) (r : ℕ) (ops : List Op) :
    ∀ w, Linked w →
      (((machine hooks).exec w ops).get r).owner =
        (ownersGiven r ((machine hooks).trace w ops)).getLastD
          (w.get r).owner := by
  induction ops with
  | nil => intro w _; rfl
  | cons op ops ih =>
      intro w hlinked
      have ht := step_transition hooks w op
      have hrest := ih _ (ht.linked hlinked)
      rw [ht.owner_eq hlinked r] at hrest
      have hcons : ownersGiven r ((machine hooks).trace w (op :: ops)) =
          (ownerGiven r w op).toList ++
            ownersGiven r ((machine hooks).trace (step hooks w op).1 ops) := by
        cases h : ownerGiven r w op <;> simp [ownersGiven, machine, h]
      rw [hcons]
      refine hrest.trans ?_
      cases ownerGiven r w op with
      | none => rfl
      | some k => exact (List.getLastD_cons ..).symm

/-- While no other valid koid is given to `r`, its owner stays `k`. -/
theorem exec_owner_of_kept (hooks : Placeholders) {r : ℕ} {k : FxKoid}
    {w : World} (hlinked : Linked w) (howner : (w.get r).owner = k)
    {ops : List Op}
    (hkept : ∀ k', Op.setOwner r k' ∈ ops → k' = k ∨ k' = fxKoidInvalid) :
    (((machine hooks).exec w ops).get r).owner = k := by
  rw [exec_owner_eq hooks r ops w hlinked, howner]
  have hall : ∀ k' ∈ ownersGiven r ((machine hooks).trace w ops),
      k' = k := by
    intro k' hk'
    obtain ⟨e, he, hgiven⟩ := List.mem_filterMap.mp hk'
    obtain ⟨front, op, rest, rfl, rfl⟩ := (machine hooks).mem_trace_iff.mp he
    obtain ⟨rfl, hvalid⟩ := ownerGiven_eq_some hgiven
    exact (hkept k' (by simp)).resolve_right hvalid
  generalize ownersGiven r ((machine hooks).trace w ops) = given at hall ⊢
  rcases List.eq_nil_or_concat given with rfl | ⟨front, last, rfl⟩
  · rfl
  · simpa using hall last (by simp)

/-! ## Noninterference -/

/-- Ownership of endpoints is noninterfering.  In every run: the owner of an
endpoint is the last valid koid given to it; erasing all mismatched reads and
writes leaves the final store and every other event as they were, and each of
the erased calls was answered ERR_BAD_HANDLE; and from a `set_owner(k)` with a
valid `k` until another valid koid is set, a call on the endpoint in the name
of anyone else is refused. -/
theorem ownership_noninterference (hooks : Placeholders) (ops : List Op) :
    let M := machine hooks
    let events := M.trace World.init ops
    let kept := M.prune Mismatched World.init ops
    (∀ r, ((M.exec World.init ops).get r).owner =
      (ownersGiven r events).getLastD fxKoidInvalid) ∧
    M.exec World.init kept = M.exec World.init ops ∧
    M.trace World.init kept =
      events.filter (fun e => ¬ Mismatched e.before e.action) ∧
    (∀ e ∈ events, Mismatched e.before e.action →
      e.reply = badHandleAnswer e.action ∧ e.after = e.before) ∧
    (∀ front r k rest, ops = front ++ .setOwner r k :: rest →
      k ≠ fxKoidInvalid → (M.exec World.init front).Allocated r →
      (∀ k', Op.setOwner r k' ∈ rest → k' = k ∨ k' = fxKoidInvalid) →
      ∀ e ∈ M.trace (M.exec World.init (front ++ [.setOwner r k])) rest,
        (∀ tlScopes j msg, e.action = .write tlScopes r j msg → j ≠ k →
          e.reply = ⟨.write (.ok .errBadHandle), []⟩ ∧
            e.after = e.before) ∧
        (∀ j msgSize msgHandleCount mayDiscard,
          e.action = .read r j msgSize msgHandleCount mayDiscard → j ≠ k →
          e.reply = ⟨.read .errBadHandle none, []⟩ ∧
            e.after = e.before)) := by
  intro M events kept
  have hskip : ∀ w op, Mismatched w op → (M.step w op).1 = w :=
    fun w op h => (event_of_mismatched hooks h).2
  refine ⟨fun r => exec_owner_eq hooks r ops World.init Linked.init,
    Machine.exec_prune hskip _ _, Machine.trace_prune hskip _ _, ?_, ?_⟩
  · intro e he hmismatch
    obtain ⟨front, op, rest, rfl, rfl⟩ := M.mem_trace_iff.mp he
    exact event_of_mismatched hooks hmismatch
  · rintro front r k rest rfl hvalid halloc hkept e he
    let v := M.exec World.init (front ++ [.setOwner r k])
    have hv : Linked v := (linked_preserved hooks).exec Linked.init _
    have howner : (v.get r).owner = k := by
      have hgiven : ownerGiven r (M.exec World.init front) (.setOwner r k) =
          some k := by
        simp [ownerGiven, halloc, hvalid]
      have hlast := exec_owner_eq hooks r [.setOwner r k]
        (M.exec World.init front)
        ((linked_preserved hooks).exec Linked.init front)
      rw [← Machine.exec_append] at hlast
      refine hlast.trans ?_
      simp [ownersGiven, hgiven]
    have hvalloc : v.Allocated r := by
      rw [show v = M.exec (M.exec World.init front) [.setOwner r k] from
        M.exec_append _ _ _]
      exact exec_allocated hooks halloc _
    obtain ⟨mid, op, rest', rfl, rfl⟩ := M.mem_trace_iff.mp he
    have hmid : ((M.exec v mid).get r).owner = k := by
      apply exec_owner_of_kept hooks hv howner
      intro k' hk'
      exact hkept k' (by simp [hk'])
    have hmidalloc := exec_allocated hooks hvalloc mid
    constructor
    · rintro tlScopes j msg rfl hj
      have hmismatch : Mismatched (M.exec v mid) (.write tlScopes r j msg) :=
        ⟨hmidalloc, fun h => hj (h.trans hmid)⟩
      exact event_of_mismatched hooks hmismatch
    · rintro j msgSize msgHandleCount mayDiscard rfl hj
      have hmismatch : Mismatched (M.exec v mid)
          (.read r j msgSize msgHandleCount mayDiscard) :=
        ⟨hmidalloc, fun h => hj (h.trans hmid)⟩
      exact event_of_mismatched hooks hmismatch

end Fiber.Kernel.Channel
