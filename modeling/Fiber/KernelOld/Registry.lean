import Fiber.KernelOld.Chronicle
import Fiber.Support.Refinement

/-!
# The old kernel as a registry

What the old kernel is for an embedder is a registry that hands out processes
in order: the handle and the koid of a process are the same number, and the
registry is full after `capacity` processes.  The tables and the two generators
implement it, also when callbacks re-enter the kernel or throw: no code of the
embedder can tell the kernel from the registry.
-/

namespace Fiber.KernelOld

open SdkTypes KernelOld.Kernel Support

/-! ## The registry -/

/-- How many processes there are ids for. -/
def capacity : ℕ := 9007199254740989

/-- The process that was created after `n` others. -/
def processAfter (n : ℕ) : KernelObject := ⟨n + 1, .process, n + 2⟩

/-- A registry with some processes. -/
structure Registry where
  created : ℕ
  created_le : created ≤ capacity

namespace Registry

def start : Registry := ⟨0, Nat.zero_le _⟩

/-- The object under a number, which is a handle and a koid alike. -/
def lookup (r : Registry) (number : ℤ) : Option KernelObject :=
  if number = rootRealmHandle then some ⟨0, .realm, rootRealmKoid⟩
  else if 2 ≤ number ∧ number < r.created + 2 then
    some (processAfter (number - 2).toNat)
  else none

/-- The registry with one more process, unless it is full. -/
def create (r : Registry) : Option Registry :=
  if h : r.created < capacity then some ⟨r.created + 1, h⟩ else none

end Registry

/-- Code of the embedder over a registry. -/
def Code.interpret : Code → EStateM JsError Registry Unit
  | .ret => pure ()
  | .fail e => throw e
  | .stub op next => (next op.result).interpret
  | .processCreate _ _ _ onProcessCreate next => do
      let outcome ← captured (do
        let r ← get
        match r.create with
        | none =>
            pure { status := .errInternal, handle := some invalidHandle }
        | some r' => do
            set r'
            (onProcessCreate (processAfter r.created)).interpret
            pure { status := .ok, handle := some (processAfter r.created).id })
      (next outcome).interpret
  | .processStart process _ onProcessStart next => do
      let outcome ← captured (do
        let r ← get
        match r.lookup process with
        | none => throw .typeError
        | some object => do
            (onProcessStart (some object)).interpret
            pure { status := .ok })
      (next outcome).interpret

/-! ## The kernel represents a registry -/

/-- The rights of the handles in the tables. -/
def rightsOf (number : ℤ) : HandleRights :=
  if number = rootRealmHandle then rightNone
  else rightTransfer ||| rightDuplicate ||| rightDestroy

theorem rightsOf_of_ne_root {number : ℤ} (h : number ≠ rootRealmHandle) :
    rightsOf number = rightTransfer ||| rightDuplicate ||| rightDestroy :=
  if_neg h

/-- Both tables are the registry, and both generators count its processes.
Only a full registry is asked for more, and then only for handles. -/
structure Represents (k : Kernel) (r : Registry) : Prop where
  handles : ∀ handle, k.handles handle =
    (r.lookup handle).map fun _ => ⟨handle, rightsOf handle⟩
  kobjects : ∀ koid, k.kobjects koid = r.lookup koid
  koidGen : k.koidGen.lastId = r.created + 1
  handleGen : k.handleGen.lastId = r.created + 1 ∨
    r.created = capacity ∧ maxSafeInteger ≤ k.handleGen.lastId
  constructed : k.constructed = r.created + 1

namespace Registry

variable {r r' : Registry} {number : ℤ}

theorem lookup_of_mem (h : 2 ≤ number ∧ number < r.created + 2) :
    r.lookup number = some (processAfter (number - 2).toNat) := by
  have hroot : number ≠ rootRealmHandle := by
    rw [rootRealmHandle]
    omega
  rw [lookup, if_neg hroot, if_pos h]

theorem lookup_of_not_mem (hroot : number ≠ rootRealmHandle)
    (h : ¬ (2 ≤ number ∧ number < r.created + 2)) : r.lookup number = none := by
  rw [lookup, if_neg hroot, if_neg h]

theorem lookup_start (hroot : number ≠ rootRealmHandle) :
    start.lookup number = none := by
  refine lookup_of_not_mem hroot fun h => ?_
  have hnone : number < ((0 : ℕ) : ℤ) + 2 := h.2
  omega

theorem create_eq_none (h : r.create = none) : r.created = capacity := by
  by_cases hroom : r.created < capacity
  · rw [create, dif_pos hroom] at h
    nomatch h
  · exact Nat.le_antisymm r.created_le (Nat.not_lt.mp hroom)

theorem create_eq_some (h : r.create = some r') :
    r.created < capacity ∧ r'.created = r.created + 1 := by
  by_cases hroom : r.created < capacity
  · rw [create, dif_pos hroom] at h
    obtain rfl := Option.some.inj h
    exact ⟨hroom, rfl⟩
  · rw [create, dif_neg hroom] at h
    nomatch h

/-- The process that is created is put under the next number. -/
theorem lookup_create (h : r.create = some r') :
    r'.lookup = Function.update r.lookup (r.created + 2)
      (some (processAfter r.created)) := by
  obtain ⟨-, hcreated⟩ := create_eq_some h
  funext number
  by_cases hnew : number = r.created + 2
  · subst number
    rw [Function.update_self, lookup_of_mem (by omega)]
    congr 2
    omega
  · rw [Function.update_of_ne hnew, lookup, lookup, hcreated]
    have hrange : 2 ≤ number ∧ number < ((r.created + 1 : ℕ) : ℤ) + 2 ↔
        2 ≤ number ∧ number < (r.created : ℤ) + 2 := by omega
    simp only [hrange]

end Registry

theorem represents_new : Represents Kernel.new .start where
  handles handle := by
    by_cases hroot : handle = rootRealmHandle
    · subst handle
      rfl
    · rw [Registry.lookup_start hroot]
      exact Function.update_of_ne hroot _ fun _ => none
  kobjects koid := by
    by_cases hroot : koid = rootRealmHandle
    · subst koid
      rfl
    · rw [Registry.lookup_start hroot]
      exact Function.update_of_ne hroot _ fun _ => none
  koidGen := rfl
  handleGen := .inl rfl
  constructed := rfl

namespace Represents

variable {R : Rounding} {k : Kernel} {r r' : Registry}

theorem exhausted_of_full (hk : Represents k r) (hfull : r.create = none) :
    k.handleGen.Exhausted := by
  rcases hk.handleGen with hlast | ⟨-, hlimit⟩
  · rw [IdGen.Exhausted, hlast, Registry.create_eq_none hfull]
    decide
  · exact Int.le_add_one hlimit

/-- A full registry refuses: the generator of handles is exhausted, and a koid
is not drawn. -/
theorem issue_of_full (hk : Represents k r) (hfull : r.create = none) :
    ∃ k', k.issue R = (k', none) ∧ Represents k' r := by
  have hcreated := Registry.create_eq_none hfull
  have hexhausted := hk.exhausted_of_full hfull
  have hpos : 0 ≤ k.handleGen.lastId := by
    have := hk.handleGen
    simp only [maxSafeInteger] at this
    omega
  obtain ⟨gen, hlimit, hdraw⟩ :=
    IdGen.getNext_of_exhausted R hpos hexhausted
  refine ⟨{ k with handleGen := gen }, ?_, ?_⟩
  · simp only [Kernel.issue, hdraw]
  · exact { hk with handleGen := .inr ⟨hcreated, hlimit⟩ }

/-- Otherwise both generators draw the next number. -/
theorem issue_of_room (hk : Represents k r) (hroom : r.create = some r') :
    ∃ k', k.issue R = (k', some ((processAfter r.created).id,
      processAfter r.created)) ∧ Represents k' r' := by
  obtain ⟨hlt, hcreated⟩ := Registry.create_eq_some hroom
  have hhandleGen : k.handleGen.lastId = r.created + 1 :=
    hk.handleGen.resolve_right fun hfull => Nat.ne_of_lt hlt hfull.1
  have hnext : ¬ maxSafeInteger ≤ (r.created : ℤ) + 1 + 1 := by
    simp only [capacity] at hlt
    simp only [maxSafeInteger]
    omega
  have hdraw : k.handleGen.getNext R =
      (⟨k.handleGen.lastId + 1⟩, .ok (k.handleGen.lastId + 1)) :=
    IdGen.getNext_of_not_exhausted R (by omega)
      (by rw [IdGen.Exhausted, hhandleGen]; exact hnext)
  have hdraw' : k.koidGen.getNext R =
      (⟨k.koidGen.lastId + 1⟩, .ok (k.koidGen.lastId + 1)) :=
    IdGen.getNext_of_not_exhausted R (by rw [hk.koidGen]; omega)
      (by rw [IdGen.Exhausted, hk.koidGen]; exact hnext)
  have hnumber : (r.created : ℤ) + 1 + 1 = r.created + 2 := by omega
  rw [hhandleGen, hnumber] at hdraw
  rw [hk.koidGen, hnumber] at hdraw'
  refine ⟨_, by
    simp only [Kernel.issue, hdraw, hdraw', hk.constructed]
    rfl, ?_⟩
  constructor
  case handles =>
    intro handle
    rw [Registry.lookup_create hroom]
    dsimp only
    by_cases hnew : handle = r.created + 2
    · subst handle
      rw [Function.update_self, Function.update_self, Option.map_some,
        rightsOf_of_ne_root (by rw [rootRealmHandle]; omega)]
    · rw [Function.update_of_ne hnew, Function.update_of_ne hnew]
      exact hk.handles handle
  case kobjects =>
    intro koid
    rw [Registry.lookup_create hroom, ← funext hk.kobjects]
    rfl
  case koidGen =>
    rw [hcreated]
    exact hnumber.symm
  case handleGen =>
    rw [hcreated]
    exact .inl hnumber.symm
  case constructed => rw [hcreated]

end Represents

/-! ## No code can tell them apart -/

/-- The kernel of the world represents the registry. -/
def Shown (w : World Journal) (r : Registry) : Prop :=
  Represents w.kernel r

/-- From a kernel that represents a registry, all code ends alike over the
two, and again the kernel represents the registry. -/
theorem matches_interpret (R : Rounding) (code : Code) (w : World Journal)
    (r : Registry) (hw : Shown w r) :
    Matches Shown (code.run R) w code.interpret r := by
  induction code generalizing w r with
  | ret => exact .pure () hw
  | fail e => exact .throw e hw
  | stub op next hnext => exact hnext op.result w r hw
  | processCreate parentRealm name programVmo onProcessCreate next hbody hnext =>
      rw [Code.run, Code.interpret]
      refine .step_code (EStateM.run_get w) ?_
      refine .step_code (EStateM.run_modify _ w) ?_
      refine .bind (.captured (.step_model (EStateM.run_get r) ?_))
        fun outcome w' r' hw' =>
          .step_code (EStateM.run_modify _ w') (hnext outcome _ r' hw')
      rcases hroom : r.create with _ | r'
      · obtain ⟨k, hissue, hk⟩ := hw.issue_of_full (R := R) hroom
        rw [Matches, processCreate_of_exhausted (w := w.calling) hissue]
        exact .ok _ hk
      · obtain ⟨k, hissue, hk⟩ := hw.issue_of_room (R := R) hroom
        refine .congr (processCreate_of_issued (w := w.calling) hissue) rfl ?_
        refine .step_model (EStateM.run_set r' r) ?_
        refine .bind (.step_code (EStateM.run_modify _ _) ?_)
          fun _ _ _ hrel => .pure _ hrel
        exact hbody _ _ r' hk
  | processStart process bootChannel onProcessStart next hbody hnext =>
      rw [Code.run, Code.interpret]
      refine .bind (.captured (.step_model (EStateM.run_get r) ?_)) hnext
      have hhandle := hw.handles process
      rcases hlookup : r.lookup process with _ | object
      · rw [hlookup] at hhandle
        rw [Matches, processStart_of_none hhandle]
        exact .error _ hw
      · rw [hlookup] at hhandle
        refine .congr (processStart_of_some hhandle) rfl ?_
        rw [hw.kobjects, hlookup]
        exact .bind (hbody (some object) w r hw)
          fun _ _ _ hrel => .pure _ hrel

/-- No code of the embedder, whatever its callbacks do and whatever it makes of
the outcomes, can tell a new kernel from an empty registry: it ends alike over
both. -/
theorem kernel_matches_registry (R : Rounding) (code : Code) :
    Matches Shown (code.run R) World.start code.interpret .start :=
  matches_interpret R code World.start .start represents_new

/-! ## The states in between -/

/-- Every state that the kernel has been in represents a registry. -/
def AllShown (w : World Journal) : Prop :=
  ∀ k ∈ w.moments, ∃ r, Represents k r

theorem AllShown.kernel {w : World Journal} (hw : AllShown w) :
    ∃ r, Represents w.kernel r :=
  hw w.kernel (List.mem_append_right _ (List.mem_singleton_self _))

theorem AllShown.past {w : World Journal} (hw : AllShown w) {k : Kernel}
    (hk : k ∈ w.past) : ∃ r, Represents k r :=
  hw k (List.mem_append_left _ hk)

/-- The past of a world is recorded together with kernels that represent
registries. -/
theorem AllShown.record {w v : World Journal} (hw : AllShown w)
    (hpast : v.past = w.past) (hv : ∃ r, Represents v.kernel r)
    {record : Record} (hrecord : ∀ k ∈ record.kernels, ∃ r, Represents k r) :
    AllShown (v.record record) := by
  intro k hk
  rcases List.mem_append.mp hk with hk | hk
  · rw [World.past_record, hpast] at hk
    rcases List.mem_append.mp hk with hk | hk
    · exact hw.past hk
    · exact hrecord k hk
  · rw [List.mem_singleton.mp hk]
    exact hv

theorem allShown_run (R : Rounding) (code : Code) (w : World Journal) :
    AllShown w → AllShown (endState (code.run R) w) := by
  refine Code.run_induction (R := R)
    (P := fun w w' => AllShown w → AllShown w') (fun _ => id)
    (fun _ _ _ h h' hw => h' (h hw)) ?_ ?_ code w
  · intro w k outcome hissue _ hw
    obtain ⟨r, hr⟩ := hw.kernel
    rcases hroom : r.create with _ | r'
    · obtain ⟨k', hissue', hk'⟩ := hr.issue_of_full (R := R) hroom
      obtain rfl := (Prod.mk.inj (hissue.symm.trans hissue')).1
      refine hw.record (v := { w.calling with kernel := k }) rfl ⟨r, hk'⟩
        fun k' hmem => ?_
      rw [List.mem_singleton.mp hmem]
      exact ⟨r, hk'⟩
    · obtain ⟨k', hissue', -⟩ := hr.issue_of_room (R := R) hroom
      nomatch hissue.symm.trans hissue'
  · intro w k handle object w' outcome hissue hbody _ hw
    obtain ⟨r, hr⟩ := hw.kernel
    rcases hroom : r.create with _ | r'
    · obtain ⟨k', hissue', -⟩ := hr.issue_of_full (R := R) hroom
      nomatch hissue.symm.trans hissue'
    · obtain ⟨k', hissue', hk'⟩ := hr.issue_of_room (R := R) hroom
      obtain rfl := (Prod.mk.inj (hissue.symm.trans hissue')).1
      have hentering : AllShown (w.entering k object) := by
        refine hw.record (v := { w.calling with kernel := k }) rfl ⟨r', hk'⟩
          fun k' hmem => ?_
        rcases List.mem_cons.mp hmem with rfl | hmem
        · exact ⟨r, hr⟩
        · rw [List.mem_singleton.mp hmem]
          exact ⟨r', hk'⟩
      have hended := hbody hentering
      refine hended.record rfl hended.kernel fun k' hmem => ?_
      rw [List.mem_singleton.mp hmem]
      exact hended.kernel

theorem allShown_start : AllShown World.start := by
  intro k hk
  rcases List.mem_cons.mp hk with rfl | hk
  · exact ⟨.start, represents_new⟩
  · rw [List.mem_singleton.mp hk]
    exact ⟨.start, represents_new⟩

/-- In every state that the kernel can be in, also inside of callbacks, the two
tables have the same keys and both generators count them: a handle is the koid
of its object.  A creation is refused exactly when there are `capacity`
processes, and never for want of a koid. -/
theorem reachable_represents (R : Rounding) {k : Kernel}
    (hk : Reachable R k) :
    ∃ r, Represents k r ∧
      ((k.issue R).2 = none ↔ r.created = capacity) ∧
      ((k.issue R).2 = none → k.handleGen.Exhausted) := by
  obtain ⟨code, hk⟩ := hk
  obtain ⟨r, hr⟩ := allShown_run R code World.start allShown_start k hk
  refine ⟨r, hr, ?_⟩
  rcases hroom : r.create with _ | r'
  · obtain ⟨k', hissue, -⟩ := hr.issue_of_full (R := R) hroom
    rw [hissue]
    exact ⟨iff_of_true rfl (Registry.create_eq_none hroom),
      fun _ => hr.exhausted_of_full hroom⟩
  · obtain ⟨k', hissue, -⟩ := hr.issue_of_room (R := R) hroom
    rw [hissue]
    exact ⟨iff_of_false nofun
      (Nat.ne_of_lt (Registry.create_eq_some hroom).1), nofun⟩

/-- A creation, another one in its callback that fails, and a third one. -/
theorem reachable_represents_nested :
    let code : Code := .processCreate 1 "test0" 0
      (fun _ => .processCreate 1 "test1" 0
        (fun _ => .fail (.error "boom")) fun _ => .ret)
      fun _ => .processCreate 1 "test2" 0 (fun _ => .ret) fun _ => .ret
    let k := (endState (code.run .double) World.start).kernel
    Reachable .double k ∧
      ∃ r, Represents k r ∧
        ((k.issue .double).2 = none ↔ r.created = capacity) ∧
        ((k.issue .double).2 = none → k.handleGen.Exhausted) := by
  intro code k
  have hk : Reachable .double k :=
    ⟨code, List.mem_append_right _ (List.mem_singleton_self _)⟩
  exact ⟨hk, reachable_represents .double hk⟩

end Fiber.KernelOld
