import Fiber.Kernel.Job.Creation
import Fiber.Support.Ancestry
import Mathlib.Data.List.Nodup

/-!
# The job forest

The jobs form a forest of bounded height.  The specification, `BoundedForest`,
speaks about whole chains of parents.  The invariant behind it, `Grown`, only
compares a job with its parent, and every creation keeps it.
-/

namespace Fiber.Kernel.Job

open Fiber.Support

/-- The parent of a job, by reference. -/
def parentOf (jobs : Store JobDispatcher) (job : ℕ) : Option ℕ :=
  (jobs.get job).parent

theorem Extends.parentOf_old {jobs jobs' : Store JobDispatcher}
    {x : JobDispatcher} (hext : Extends jobs jobs' x) {j : ℕ}
    (hj : jobs.Allocated j) : parentOf jobs' j = parentOf jobs j := by
  rw [parentOf, hext.old j hj]
  rfl

theorem Extends.parentOf_new {jobs jobs' : Store JobDispatcher}
    {x : JobDispatcher} (hext : Extends jobs jobs' x) :
    parentOf jobs' jobs.next = x.parent := by
  rw [parentOf, hext.new]

/-- Every job but the roots is listed once, by its parent only; the root of a
job is as many steps away as its height is below the maximum, and shares its
policy; no chain of parents is longer than the maximum or returns. -/
structure BoundedForest (jobs : Store JobDispatcher) : Prop where
  listed_once : ∀ j p, jobs.Allocated j → parentOf jobs j = some p →
    jobs.Allocated p ∧ (jobs.get p).jobs.count j = 1
  listed_only : ∀ j p, jobs.Allocated p → j ∈ (jobs.get p).jobs →
    jobs.Allocated j ∧ parentOf jobs j = some p
  rooted : ∀ j, jobs.Allocated j → ∃ root n, jobs.Allocated root ∧
    RootAt (parentOf jobs) n j root ∧
      (n : ℤ) = rootJobMaxHeight - (jobs.get j).maxHeight ∧
      (jobs.get j).getPolicy = (jobs.get root).getPolicy
  exact_depth : ∀ j n root, jobs.Allocated j →
    RootAt (parentOf jobs) n j root →
      (n : ℤ) = rootJobMaxHeight - (jobs.get j).maxHeight
  acyclic : ∀ j n, jobs.Allocated j →
    climb (parentOf jobs) (n + 1) j ≠ some j
  bounded : ∀ j, jobs.Allocated j →
    0 ≤ (jobs.get j).maxHeight ∧ (jobs.get j).maxHeight ≤ rootJobMaxHeight
  depth_le : ∀ j n root, jobs.Allocated j →
    RootAt (parentOf jobs) n j root → (n : ℤ) ≤ rootJobMaxHeight

/-- What the constructors and `addChildJob` establish. -/
structure Grown (jobs : Store JobDispatcher) : Prop where
  ready : ∀ j, jobs.Allocated j → (jobs.get j).state = .ready
  bounded : ∀ j, jobs.Allocated j →
    0 ≤ (jobs.get j).maxHeight ∧ (jobs.get j).maxHeight ≤ rootJobMaxHeight
  closed : ∀ j p, jobs.Allocated j → parentOf jobs j = some p →
    jobs.Allocated p
  root : ∀ j, jobs.Allocated j → parentOf jobs j = none →
    (jobs.get j).maxHeight = rootJobMaxHeight
  child : ∀ j p, jobs.Allocated j → parentOf jobs j = some p →
    (jobs.get j).maxHeight = (jobs.get p).maxHeight - 1
  policy : ∀ j p, jobs.Allocated j → parentOf jobs j = some p →
    (jobs.get j).getPolicy = (jobs.get p).getPolicy
  nodup : ∀ p, jobs.Allocated p → (jobs.get p).jobs.Nodup
  listed : ∀ j p, jobs.Allocated p →
    (j ∈ (jobs.get p).jobs ↔ jobs.Allocated j ∧ parentOf jobs j = some p)

/-! ## The invariant gives the specification -/

/-- The number of steps to the root. -/
def depth (jobs : Store JobDispatcher) (job : ℕ) : ℕ :=
  (rootJobMaxHeight - (jobs.get job).maxHeight).toNat

namespace Grown

variable {jobs : Store JobDispatcher}

theorem cast_depth (h : Grown jobs) {j : ℕ} (hj : jobs.Allocated j) :
    (depth jobs j : ℤ) = rootJobMaxHeight - (jobs.get j).maxHeight := by
  have hbounded := h.bounded j hj
  exact Int.toNat_of_nonneg (by omega)

theorem ranked (h : Grown jobs) :
    Ranked (parentOf jobs) jobs.Allocated (depth jobs) where
  closed := h.closed
  root := by
    intro j hj hparent
    have hroot := h.root j hj hparent
    have hdepth := h.cast_depth hj
    omega
  child := by
    intro j p hj hparent
    have hchild := h.child j p hj hparent
    have hj' := h.cast_depth hj
    have hp' := h.cast_depth (h.closed j p hj hparent)
    omega

theorem boundedForest (h : Grown jobs) : BoundedForest jobs where
  listed_once := by
    intro j p hj hparent
    have hp := h.closed j p hj hparent
    exact ⟨hp, List.count_eq_one_of_mem (h.nodup p hp)
      ((h.listed j p hp).mpr ⟨hj, hparent⟩)⟩
  listed_only := fun j p hp hlisted => (h.listed j p hp).mp hlisted
  rooted := by
    intro j hj
    obtain ⟨root, hroot⟩ := h.ranked.exists_rootAt hj
    exact ⟨root, depth jobs j, hroot.mem h.closed hj, hroot, h.cast_depth hj,
      hroot.eq_of_inherited (f := fun j => (jobs.get j).getPolicy)
        h.closed h.policy hj⟩
  exact_depth := by
    intro j n root hj hroot
    rw [h.ranked.eq_of_rootAt hj hroot, h.cast_depth hj]
  acyclic := fun j n hj => h.ranked.climb_ne_self hj n
  bounded := h.bounded
  depth_le := by
    intro j n root hj hroot
    have hbounded := h.bounded j hj
    rw [h.ranked.eq_of_rootAt hj hroot, h.cast_depth hj]
    omega

/-! ## Every creation keeps the invariant -/

theorem init : Grown Objects.init.jobs := by
  have hnone : ∀ j, ¬ Objects.init.jobs.Allocated j := Nat.not_lt_zero
  constructor <;> intro j <;> intros <;> exact absurd ‹_› (hnone _)

/-- After the addition, the lists of child jobs are again exact. -/
theorem listed_of_extends {jobs' : Store JobDispatcher} {x : JobDispatcher}
    (h : Grown jobs) (hext : Extends jobs jobs' x) (hempty : x.jobs = [])
    (hchild : ∀ p, x.parent = some p → jobs.Allocated p) (j p : ℕ)
    (hp : jobs'.Allocated p) :
    j ∈ (jobs'.get p).jobs ↔
      jobs'.Allocated j ∧ parentOf jobs' j = some p := by
  rcases (hext.allocated p).mp hp with hp | rfl
  · rw [hext.old p hp, List.mem_append, h.listed j p hp]
    constructor
    · rintro (⟨hj, hparent⟩ | hnew)
      · exact ⟨(hext.allocated j).mpr (Or.inl hj),
          (hext.parentOf_old hj).trans hparent⟩
      · split at hnew
        next hparent =>
          obtain rfl := List.mem_singleton.mp hnew
          exact ⟨(hext.allocated _).mpr (Or.inr rfl),
            hext.parentOf_new.trans hparent⟩
        next => cases hnew
    · rintro ⟨hj, hparent⟩
      rcases (hext.allocated j).mp hj with hj | rfl
      · rw [hext.parentOf_old hj] at hparent
        exact Or.inl ⟨hj, hparent⟩
      · rw [hext.parentOf_new] at hparent
        rw [if_pos hparent]
        exact Or.inr List.mem_cons_self
  · -- The new job is nobody's parent, because parents are there before.
    rw [hext.new, hempty]
    simp only [List.not_mem_nil, false_iff, not_and]
    intro hj hparent
    apply jobs.not_allocated_next
    rcases (hext.allocated j).mp hj with hj | rfl
    · rw [hext.parentOf_old hj] at hparent
      exact h.closed j _ hj hparent
    · rw [hext.parentOf_new] at hparent
      exact hchild _ hparent

/-- Adding a job without children, which is a root of maximal height or one
below its parent and with its policy. -/
theorem extend {jobs' : Store JobDispatcher} {x : JobDispatcher}
    (h : Grown jobs) (hext : Extends jobs jobs' x)
    (hready : x.state = .ready) (hempty : x.jobs = [])
    (hheight : 0 ≤ x.maxHeight ∧ x.maxHeight ≤ rootJobMaxHeight)
    (hroot : x.parent = none → x.maxHeight = rootJobMaxHeight)
    (hchild : ∀ p, x.parent = some p → jobs.Allocated p ∧
      x.maxHeight = (jobs.get p).maxHeight - 1 ∧
      x.getPolicy = (jobs.get p).getPolicy) : Grown jobs' where
  ready := by
    intro j hj
    rcases (hext.allocated j).mp hj with hj | rfl
    · rw [hext.old j hj]
      exact h.ready j hj
    · rwa [hext.new]
  bounded := by
    intro j hj
    rcases (hext.allocated j).mp hj with hj | rfl
    · rw [hext.old j hj]
      exact h.bounded j hj
    · rwa [hext.new]
  closed := by
    intro j p hj hparent
    refine (hext.allocated p).mpr (Or.inl ?_)
    rcases (hext.allocated j).mp hj with hj | rfl
    · rw [hext.parentOf_old hj] at hparent
      exact h.closed j p hj hparent
    · rw [hext.parentOf_new] at hparent
      exact (hchild p hparent).1
  root := by
    intro j hj hparent
    rcases (hext.allocated j).mp hj with hj | rfl
    · rw [hext.parentOf_old hj] at hparent
      rw [hext.old j hj]
      exact h.root j hj hparent
    · rw [hext.parentOf_new] at hparent
      rw [hext.new]
      exact hroot hparent
  child := by
    intro j p hj hparent
    rcases (hext.allocated j).mp hj with hj | rfl
    · rw [hext.parentOf_old hj] at hparent
      rw [hext.old j hj, hext.old p (h.closed j p hj hparent)]
      exact h.child j p hj hparent
    · rw [hext.parentOf_new] at hparent
      obtain ⟨hp, hbelow, -⟩ := hchild p hparent
      rw [hext.new, hext.old p hp]
      exact hbelow
  policy := by
    intro j p hj hparent
    rcases (hext.allocated j).mp hj with hj | rfl
    · rw [hext.parentOf_old hj] at hparent
      rw [hext.old j hj, hext.old p (h.closed j p hj hparent)]
      exact h.policy j p hj hparent
    · rw [hext.parentOf_new] at hparent
      obtain ⟨hp, -, hpolicy⟩ := hchild p hparent
      rw [hext.new, hext.old p hp]
      exact hpolicy
  nodup := by
    intro p hp
    rcases (hext.allocated p).mp hp with hp | rfl
    · have hnext : jobs.next ∉ (jobs.get p).jobs := fun hmem =>
        jobs.not_allocated_next ((h.listed _ p hp).mp hmem).1
      rw [hext.old p hp]
      split
      next =>
        exact List.concat_eq_append ▸ (h.nodup p hp).concat hnext
      next => simpa using h.nodup p hp
    · rw [hext.new, hempty]
      exact List.nodup_nil
  listed := h.listed_of_extends hext hempty fun p hp => (hchild p hp).1

variable {o : Objects}

theorem addRoot (h : Grown o.jobs) : Grown o.addRoot.jobs :=
  h.extend (addRoot_extends o) rfl rfl
    ⟨by simp [rootJobMaxHeight], Int.le_refl _⟩ (fun _ => rfl)
    (fun _ hparent => by cases hparent)

theorem addChild (h : Grown o.jobs) {parent : ℕ}
    (hparent : o.jobs.Allocated parent)
    (hheight : (o.jobs.get parent).maxHeight ≠ 0) :
    Grown (o.addChild parent).jobs := by
  have hbounded := h.bounded parent hparent
  refine h.extend (addChild_extends hparent) rfl rfl ?_
    (fun hnone => by cases hnone) ?_
  · simp only [Objects.childOf]
    omega
  · rintro p hp
    obtain rfl := Option.some.inj hp
    exact ⟨hparent, rfl, rfl⟩

theorem addProcess (h : Grown o.jobs) (job : ℕ) (name : String) :
    Grown (o.addProcess job name).jobs := by
  have hparentOf : parentOf (o.addProcess job name).jobs = parentOf o.jobs := by
    funext j
    rw [parentOf, addProcess_get]
    rfl
  constructor <;> simp only [hparentOf, addProcess_get]
  · exact h.ready
  · exact h.bounded
  · exact h.closed
  · exact h.root
  · exact h.child
  · exact h.policy
  · exact h.nodup
  · exact h.listed

end Grown

theorem Transition.grown {o o' : Objects} {op : Op} {reply : Reply}
    (ht : Transition o op o' reply) (h : Grown o.jobs) : Grown o'.jobs := by
  cases ht with
  | createdRoot => exact h.addRoot
  | noParent | full | noJob | refusedProcess => exact h
  | refused hparent _ hstate => exact absurd (h.ready _ hparent) hstate
  | created hparent hheight => exact h.addChild hparent hheight
  | createdProcess => exact h.addProcess _ _

theorem grown_preserved : machine.Preserves fun o => Grown o.jobs :=
  fun o op h => (step_transition o op).grown h

/-- The jobs form a bounded forest after every sequence of creations, and
`create` succeeds exactly under parents above the maximal depth; a refused
creation leaves every job as it is. -/
theorem jobs_bounded_forest (ops : List Op) :
    let o := machine.exec Objects.init ops
    BoundedForest o.jobs ∧
    ∀ parent, o.jobs.Allocated parent → ∀ flags,
      ∃ status handle rights o',
        (JobDispatcher.create parent flags).run o =
          .ok (status, handle, rights) o' ∧
        (status = .ok ↔ ∃ n root,
          RootAt (parentOf o.jobs) n parent root ∧
            (n : ℤ) < rootJobMaxHeight) ∧
        (status ≠ .ok → ∀ j, o.jobs.Allocated j →
          o'.jobs.get j = o.jobs.get j) := by
  intro o
  have h : Grown o.jobs := grown_preserved.exec Grown.init ops
  refine ⟨h.boundedForest, fun parent hparent flags => ?_⟩
  obtain ⟨root, hroot⟩ := h.ranked.exists_rootAt hparent
  have hdepth := h.cast_depth hparent
  by_cases hheight : (o.jobs.get parent).maxHeight = 0
  · refine ⟨_, _, _, _, JobDispatcher.create_of_maxHeight_eq_zero hparent
      hheight flags, ?_, fun _ _ _ => rfl⟩
    simp only [reduceCtorEq, false_iff]
    rintro ⟨n, root', hroot', hn⟩
    rw [h.ranked.eq_of_rootAt hparent hroot'] at hn
    omega
  · refine ⟨_, _, _, _, JobDispatcher.create_of_ready hparent hheight
      (h.ready parent hparent) flags, ?_, fun hstatus => absurd rfl hstatus⟩
    simp only [true_iff]
    have hbounded := h.bounded parent hparent
    exact ⟨depth o.jobs parent, root, hroot, by omega⟩

end Fiber.Kernel.Job
