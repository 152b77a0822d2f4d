import Fiber.Kernel.Job.Forest
import Fiber.Kernel.System.Userland

/-!
# The job tree under user code

User code has one way to change the jobs: new processes are listed, each by
one job, in the order in which they are made.  The tree itself, with its
heights and policies, and the processes listed before stay as they are.
-/

namespace Fiber.Kernel

open Fiber.Support Job

/-- New processes, oldest first, with the jobs that list them. -/
abbrev Enlistments := List (ℕ × ProcessDispatcher)

namespace Enlistments

/-- The new processes of one job. -/
def of (made : Enlistments) (job : ℕ) : List ProcessDispatcher :=
  (made.filter fun m => m.1 = job).map Prod.snd

theorem of_append (made made' : Enlistments) (job : ℕ) :
    of (made ++ made') job = made.of job ++ made'.of job := by
  rw [of, List.filter_append, List.map_append]
  rfl

theorem of_singleton (m : ℕ × ProcessDispatcher) (job : ℕ) :
    of [m] job = if job = m.1 then [m.2] else [] := by
  by_cases h : job = m.1
  · rw [if_pos h, of, List.filter_cons_of_pos (by simp [h])]
    rfl
  · rw [if_neg h, of, List.filter_cons_of_neg (by simp [Ne.symm h])]
    rfl

theorem mem_of {made : Enlistments} {job : ℕ} {process : ProcessDispatcher} :
    process ∈ made.of job ↔ (job, process) ∈ made := by
  simp [of]

end Enlistments

/-- Userboot is made under the root job; the processes of `sys_process_create`
all get the same name. -/
def Named (m : ℕ × ProcessDispatcher) : Prop :=
  m.1 = rootJob ∧ m.2.name = "userboot" ∨ m.2.name = "TODO sp here"

/-- From `o` to `o'` the jobs list the processes `made`, and nothing else
about the jobs changes. -/
structure Enlists (made : Enlistments) (o o' : Objects) : Prop where
  jobs : ∀ job, o'.jobs.get job =
    { o.jobs.get job with procs := (o.jobs.get job).procs ++ made.of job }
  next : o'.jobs.next = o.jobs.next
  processes_le : o.processes ≤ o'.processes
  ordered : made.Pairwise fun m m' => m.2.ref < m'.2.ref
  allocated : ∀ m ∈ made, o.jobs.Allocated m.1
  made_between : ∀ m ∈ made, o.processes ≤ m.2.ref ∧ m.2.ref < o'.processes
  named : ∀ m ∈ made, Named m

/-- Every process is listed once, under its own number. -/
structure Registered (o : Objects) : Prop where
  made : ∀ job, ∀ p ∈ (o.jobs.get job).procs, p.ref < o.processes
  ordered : ∀ job,
    (o.jobs.get job).procs.Pairwise fun p p' => p.ref < p'.ref
  once : ∀ job job', ∀ p ∈ (o.jobs.get job).procs,
    ∀ p' ∈ (o.jobs.get job').procs, p.ref = p'.ref → job = job'

namespace Enlists

variable {made made' : Enlistments} {o o' o'' : Objects}

theorem refl (o : Objects) : Enlists [] o o where
  jobs job := by rw [Enlistments.of, List.filter_nil, List.map_nil,
    List.append_nil]
  next := rfl
  processes_le := Nat.le_refl _
  ordered := .nil
  allocated := nofun
  made_between := nofun
  named := nofun

theorem trans (h : Enlists made o o') (h' : Enlists made' o' o'') :
    Enlists (made ++ made') o o'' where
  jobs job := by
    rw [h'.jobs, h.jobs, Enlistments.of_append, List.append_assoc]
  next := h'.next.trans h.next
  processes_le := Nat.le_trans h.processes_le h'.processes_le
  ordered := by
    refine List.pairwise_append.mpr ⟨h.ordered, h'.ordered, ?_⟩
    intro m hm m' hm'
    exact Nat.lt_of_lt_of_le (h.made_between m hm).2
      (h'.made_between m' hm').1
  allocated := by
    intro m hm
    rcases List.mem_append.mp hm with hm | hm
    · exact h.allocated m hm
    · have hallocated := h'.allocated m hm
      rwa [Store.Allocated, h.next] at hallocated
  made_between := by
    intro m hm
    rcases List.mem_append.mp hm with hm | hm
    · have hm := h.made_between m hm
      exact ⟨hm.1, Nat.lt_of_lt_of_le hm.2 h'.processes_le⟩
    · have hm := h'.made_between m hm
      exact ⟨Nat.le_trans h.processes_le hm.1, hm.2⟩
  named := by
    intro m hm
    rcases List.mem_append.mp hm with hm | hm
    · exact h.named m hm
    · exact h'.named m hm

/-- A process that no job admits is lost. -/
theorem constructProcess (o : Objects) : Enlists [] o o.constructProcess :=
  { refl o with
    processes_le := Nat.le_succ _
    made_between := nofun }

theorem addProcess {job : ℕ} {name : String} (hjob : o.jobs.Allocated job)
    (hnamed : Named (job, o.processNamed name)) :
    Enlists [(job, o.processNamed name)] o (o.addProcess job name) where
  jobs q := by rw [addProcess_get, Enlistments.of_singleton]
  next := rfl
  processes_le := Nat.le_succ _
  ordered := List.pairwise_singleton _ _
  allocated := by
    intro m hm
    rw [List.mem_singleton.mp hm]
    exact hjob
  made_between := by
    intro m hm
    rw [List.mem_singleton.mp hm]
    exact ⟨Nat.le_refl _, Nat.lt_succ_self _⟩
  named := by
    intro m hm
    rw [List.mem_singleton.mp hm]
    exact hnamed

/-! ## What is kept -/

theorem parentOf_eq (h : Enlists made o o') :
    parentOf o'.jobs = parentOf o.jobs := by
  funext job
  rw [parentOf, h.jobs]
  rfl

theorem allocated_iff (h : Enlists made o o') (job : ℕ) :
    o'.jobs.Allocated job ↔ o.jobs.Allocated job := by
  rw [Store.Allocated, h.next, Store.Allocated]

/-- A forest says nothing about processes. -/
theorem boundedForest (h : Enlists made o o') (ho : BoundedForest o.jobs) :
    BoundedForest o'.jobs := by
  constructor <;> simp only [h.parentOf_eq, h.allocated_iff, h.jobs]
  · exact ho.listed_once
  · exact ho.listed_only
  · exact ho.rooted
  · exact ho.exact_depth
  · exact ho.acyclic
  · exact ho.bounded
  · exact ho.depth_le

/-- No two new processes have one number. -/
theorem eq_of_ref (h : Enlists made o o') {m m' : ℕ × ProcessDispatcher}
    (hm : m ∈ made) (hm' : m' ∈ made) (hsame : m.2.ref = m'.2.ref) :
    m = m' := by
  have hnodup : (made.map fun m => m.2.ref).Nodup :=
    List.pairwise_map.mpr (h.ordered.imp Nat.ne_of_lt)
  exact List.inj_on_of_nodup_map hnodup hm hm' hsame

/-- New processes have new numbers. -/
theorem registered (h : Enlists made o o') (ho : Registered o) :
    Registered o' := by
  have hmem : ∀ job, ∀ p ∈ (o'.jobs.get job).procs,
      p ∈ (o.jobs.get job).procs ∨ (job, p) ∈ made := by
    intro job p hp
    rw [h.jobs] at hp
    exact (List.mem_append.mp hp).imp_right Enlistments.mem_of.mp
  constructor
  · intro job p hp
    rcases hmem job p hp with hold | hnew
    · exact Nat.lt_of_lt_of_le (ho.made job p hold) h.processes_le
    · exact (h.made_between _ hnew).2
  · intro job
    rw [h.jobs]
    refine List.pairwise_append.mpr ⟨ho.ordered job, ?_, ?_⟩
    · exact List.pairwise_map.mpr (h.ordered.filter _)
    · intro p hp p' hp'
      exact Nat.lt_of_lt_of_le (ho.made job p hp)
        (h.made_between _ (Enlistments.mem_of.mp hp')).1
  · intro job job' p hp p' hp' hsame
    rcases hmem job p hp with hold | hnew <;>
      rcases hmem job' p' hp' with hold' | hnew'
    · exact ho.once job job' p hold p' hold' hsame
    · have hlt : p.ref < p'.ref := Nat.lt_of_lt_of_le
        (ho.made job p hold) (h.made_between _ hnew').1
      exact absurd hsame (Nat.ne_of_lt hlt)
    · have hlt : p'.ref < p.ref := Nat.lt_of_lt_of_le
        (ho.made job' p' hold') (h.made_between _ hnew).1
      exact absurd hsame.symm (Nat.ne_of_lt hlt)
    · exact congrArg Prod.fst (h.eq_of_ref hnew hnew' hsame)

end Enlists

/-! ## Syscalls -/

theorem enlists_create {job : ℕ} {name : String} (flags : ℕ) {o : Objects}
    (hnamed : Named (job, o.processNamed name)) :
    ∃ made, Enlists made o
      (perform (ProcessDispatcher.create job name flags) o).1 := by
  by_cases hjob : o.jobs.Allocated job
  · by_cases hstate : (o.jobs.get job).state = .ready
    · rw [perform, ProcessDispatcher.create_of_ready hjob hstate]
      exact ⟨_, .addProcess hjob hnamed⟩
    · rw [perform, ProcessDispatcher.create_of_not_ready hjob hstate]
      exact ⟨[], .constructProcess o⟩
  · rw [perform, ProcessDispatcher.create_of_not_allocated hjob]
    exact ⟨[], .constructProcess o⟩

theorem enlists_sysProcessCreate (env : Environment)
    (tlScopes : List ProcessContext) (args : ProcessCreateArgs)
    (o : Objects) : ∃ made, Enlists made o
      (perform (sysProcessCreate env tlScopes args) o).1 := by
  have hending := sysProcessCreate_ending env tlScopes args o
  generalize perform (sysProcessCreate env tlScopes args) o = done
    at hending ⊢
  obtain ⟨o', result⟩ := done
  cases hending with
  | invalidOptions | noCurrent | policyDenied | lookupsFail =>
      exact ⟨[], .refl _⟩
  | noJob | notReady => exact ⟨[], .constructProcess _⟩
  | noProcessHandle _ _ hjob | handles _ _ hjob =>
      exact ⟨_, .addProcess hjob (.inr rfl)⟩

/-! ## Runs -/

theorem enlists_throughout :
    Throughout fun r r' => ∃ made, Enlists made r.objects r'.objects where
  refl r := ⟨[], .refl _⟩
  trans _ _ _ h h' := by
    obtain ⟨made, hmade⟩ := h
    obtain ⟨made', hmade'⟩ := h'
    exact ⟨made ++ made', hmade.trans hmade'⟩
  processCreate env args r := by
    rw [endState_processCreate]
    exact enlists_sysProcessCreate env r.tlScopes args r.objects
  processStart env args entry hentry r := by
    obtain ⟨r', -, hsame, hend | ⟨up, -, hend⟩⟩ :=
      endState_sysProcessStart (env.running entry) args r
    · refine ⟨[], ?_⟩
      rw [hend, Realm.objects, Realm.objects, hsame]
      exact .refl _
    · obtain ⟨made, hmade⟩ := hentry { r' with
        tlScopes := r'.tlScopes ++
          [⟨((env.running entry).processLookup args r up).2⟩] }
      refine ⟨made, ?_⟩
      rw [hend, Realm.objects, Realm.objects, rest_endState_scope, ← hsame]
      exact hmade
  userboot initial hinitial r := by
    have hbooted : ∃ made, Enlists made r.objects r.booted.objects :=
      enlists_create 0 (.inl ⟨rfl, rfl⟩)
    rcases endState_startUserboot initial r with hend | hend
    · rw [hend]
      exact hbooted
    · obtain ⟨made, hmade⟩ := hbooted
      obtain ⟨made', hmade'⟩ := hinitial { r.booted with
        tlScopes := r.tlScopes ++ [r.userboot] }
      refine ⟨made ++ made', hmade.trans ?_⟩
      rw [hend, Realm.objects, Realm.objects, rest_endState_scope]
      exact hmade'
  pending r pending := ⟨[], .refl _⟩
  observed r running moment _ := ⟨[], .refl _⟩
  escaped r running := ⟨[], .refl _⟩

/-- In every run of processes and of the event loop the jobs change only by
the processes that are added to them, in the order of their numbers: the forest
of the jobs stays as it is, and every process is listed once. -/
theorem job_tree_append_only (r : KernelState) (turns : List KernelTurn) :
    let o := r.objects
    let o' := (kernelMachine.exec r turns).objects
    (∃ made, Enlists made o o') ∧
      (BoundedForest o.jobs → BoundedForest o'.jobs) ∧
      (Registered o → Registered o') := by
  obtain ⟨made, hmade⟩ := enlists_throughout.exec r turns
  exact ⟨⟨made, hmade⟩, hmade.boundedForest, hmade.registered⟩

end Fiber.Kernel
