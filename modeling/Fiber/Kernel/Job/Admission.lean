import Fiber.Kernel.Job.Creation
import Fiber.Support.Ledger

/-!
# Admission of children

A job admits children while it is ready, and the environment may set its state
at any time.  The lists of a job are compared with the history of the calls:
they consist of the children whose creation was answered by success, in
order.  A child that was constructed and then refused is in no list.
-/

namespace Fiber.Kernel.Job

open Fiber.Support

/-- A creation, or a change of a job's state by the environment. -/
inductive Action
  | call (op : Op)
  | setState (job : ℕ) (state : State)
  deriving DecidableEq

def setState (o : Objects) (job : ℕ) (state : State) : Objects :=
  if o.jobs.Allocated job then
    { o with jobs := o.jobs.set job { o.jobs.get job with state := state } }
  else o

/-- All jobs of the kernel, in an environment that sets their states. -/
def governed : Machine Objects Action (Option Reply) where
  step := fun o a =>
    match a with
    | .call op =>
        let done := step o op
        (done.1, some done.2)
    | .setState job state => (setState o job state, none)

/-- An event of the governed kernel. -/
abbrev GovernedEvent := Event Objects Action (Option Reply)

/-! ## The history of admissions -/

/-- The job whose creation an event reports, with its parent. -/
def admittedJob (e : GovernedEvent) : Option (ℕ × ℕ) :=
  match e.action, e.reply with
  | .call (.create parent _), some (.job (.ok (.ok, some child, _))) =>
      some (parent, child)
  | _, _ => none

/-- The process whose creation an event reports, with its job. -/
def admittedProcess (e : GovernedEvent) : Option (ℕ × ProcessDispatcher) :=
  match e.action, e.reply with
  | .call (.createProcess job _ _), some (.process (.ok result)) =>
      result.ok.map fun made => (job, made.1)
  | _, _ => none

/-- What a field of a job lists; what is not a job lists nothing. -/
def listOf {β : Type} (jobs : Store JobDispatcher)
    (field : JobDispatcher → List β) (job : ℕ) : List β :=
  if jobs.Allocated job then field (jobs.get job) else []

/-- The lists of child jobs. -/
def children : Ledger Objects ℕ ℕ where
  next := fun o => o.jobs.next
  items := fun o => listOf o.jobs JobDispatcher.jobs
  number := id

/-- The lists of processes. -/
def members : Ledger Objects ℕ ProcessDispatcher where
  next := Objects.processes
  items := fun o => listOf o.jobs JobDispatcher.procs
  number := ProcessDispatcher.ref

/-- Jobs that refer to existing objects only, with heights of the type
`u32`. -/
structure Forest (o : Objects) : Prop where
  height : ∀ j, o.jobs.Allocated j → 0 ≤ (o.jobs.get j).maxHeight
  jobs : children.Numbered o
  procs : members.Numbered o

/-! ## One step -/

section

variable {β : Type} {f : JobDispatcher → List β} {jobs : Store JobDispatcher}

theorem listOf_of_allocated {j : ℕ} (hj : jobs.Allocated j) :
    listOf jobs f j = f (jobs.get j) :=
  if_pos hj

/-- A new job without entries changes no list. -/
theorem listOf_alloc {x : JobDispatcher} (hx : f x = []) (j : ℕ) :
    listOf (jobs.alloc x) f j = listOf jobs f j := by
  by_cases hj : jobs.Allocated j
  · rw [listOf_of_allocated hj, listOf_of_allocated (hj.alloc x),
      jobs.get_alloc_of_allocated hj]
  · rw [listOf, listOf, if_neg hj]
    split
    next hnew =>
      rcases (jobs.allocated_alloc x j).mp hnew with h | rfl
      · exact absurd h hj
      · rw [jobs.get_alloc_self, hx]
    next => rfl

theorem listOf_set {p : ℕ} (hp : jobs.Allocated p) (x : JobDispatcher)
    (j : ℕ) :
    listOf (jobs.set p x) f j = if j = p then f x else listOf jobs f j := by
  by_cases hj : j = p
  · subst hj
    rw [if_pos rfl, listOf, if_pos (show (jobs.set j x).Allocated j from hp),
      Store.get_set_self]
  · rw [if_neg hj, listOf, Store.get_set_of_ne _ hj]
    rfl

/-- Writing back a job with the same list changes no list. -/
theorem listOf_set_same {p : ℕ} (hp : jobs.Allocated p) (x : JobDispatcher)
    (hx : f x = f (jobs.get p)) (j : ℕ) :
    listOf (jobs.set p x) f j = listOf jobs f j := by
  rw [listOf_set hp]
  split
  next heq => rw [heq, hx, listOf_of_allocated hp]
  next => rfl

/-- Writing back a job with one more entry adds it to the list. -/
theorem listOf_set_append {p : ℕ} (hp : jobs.Allocated p)
    (x : JobDispatcher) {y : β} (hx : f x = f (jobs.get p) ++ [y]) (j : ℕ) :
    listOf (jobs.set p x) f j =
      listOf jobs f j ++ Ledger.entry j (some (p, y)) := by
  rw [listOf_set hp, Ledger.entry]
  split
  next heq => rw [heq, hx, listOf_of_allocated hp]
  next => rw [List.append_nil]

end

section

variable {o : Objects} {job parent : ℕ}

theorem children_addChild (hparent : o.jobs.Allocated parent) (j : ℕ) :
    children.items (o.addChild parent) j =
      children.items o j ++ Ledger.entry j (some (parent, o.jobs.next)) := by
  have hnew : (o.constructChild parent).jobs.Allocated parent :=
    hparent.alloc _
  refine (listOf_set_append hnew _ (by rfl) j).trans ?_
  rw [Objects.constructChild, listOf_alloc (by rfl)]
  rfl

theorem members_addChild (hparent : o.jobs.Allocated parent) (j : ℕ) :
    members.items (o.addChild parent) j = members.items o j := by
  have hnew : (o.constructChild parent).jobs.Allocated parent :=
    hparent.alloc _
  refine (listOf_set_same hnew _ (by rfl) j).trans ?_
  rw [Objects.constructChild, listOf_alloc (by rfl)]
  rfl

/-- Setting the state of a job changes no list. -/
theorem listOf_setState {β : Type} {f : JobDispatcher → List β}
    {state : State}
    (hf : ∀ y : JobDispatcher, f { y with state := state } = f y) (j : ℕ) :
    listOf (setState o job state).jobs f j = listOf o.jobs f j := by
  rw [setState]
  split
  next hjob => exact listOf_set_same hjob _ (hf _) j
  next => rfl

theorem setState_next (state : State) :
    (setState o job state).jobs.next = o.jobs.next := by
  rw [setState]
  split <;> rfl

theorem setState_processes (state : State) :
    (setState o job state).processes = o.processes := by
  rw [setState]
  split <;> rfl

end

/-- One action makes objects and admits at most one of them, which is then
the last of its list. -/
structure Books (o o' : Objects) (job : Option (ℕ × ℕ))
    (process : Option (ℕ × ProcessDispatcher)) : Prop where
  jobs_le : o.jobs.next ≤ o'.jobs.next
  processes_le : o.processes ≤ o'.processes
  children : ∀ j, children.items o' j =
    children.items o j ++ Ledger.entry j job
  members : ∀ j, members.items o' j =
    members.items o j ++ Ledger.entry j process
  new_job : ∀ p child, job = some (p, child) →
    child = o.jobs.next ∧ o.jobs.next < o'.jobs.next
  new_process : ∀ p x, process = some (p, x) →
    x.ref = o.processes ∧ o.processes < o'.processes

/-- Without an admission the lists stay as they are. -/
theorem Books.quiet {o o' : Objects} (hjobs : o.jobs.next ≤ o'.jobs.next)
    (hprocesses : o.processes ≤ o'.processes)
    (hchildren : ∀ j, Job.children.items o' j = Job.children.items o j)
    (hmembers : ∀ j, Job.members.items o' j = Job.members.items o j) :
    Books o o' none none where
  jobs_le := hjobs
  processes_le := hprocesses
  children := fun j => (hchildren j).trans (List.append_nil _).symm
  members := fun j => (hmembers j).trans (List.append_nil _).symm
  new_job := nofun
  new_process := nofun

theorem books_of_step (o : Objects) (a : Action) :
    Books o (governed.step o a).1 (admittedJob (governed.event o a))
      (admittedProcess (governed.event o a)) := by
  rcases a with op | ⟨job, state⟩
  · have ht := step_transition o op
    simp only [governed, Machine.event, admittedJob, admittedProcess]
    generalize step o op = done at ht ⊢
    obtain ⟨o', reply⟩ := done
    cases ht with
    | createdRoot =>
        exact .quiet (Nat.le_succ _) (Nat.le_refl _) (listOf_alloc rfl)
          (listOf_alloc rfl)
    | noParent | full =>
        exact .quiet (Nat.le_refl _) (Nat.le_refl _) (fun _ => rfl)
          (fun _ => rfl)
    | refused =>
        exact .quiet (Nat.le_succ _) (Nat.le_refl _) (listOf_alloc rfl)
          (listOf_alloc rfl)
    | created hparent =>
        exact {
          jobs_le := Nat.le_succ _
          processes_le := Nat.le_refl _
          children := children_addChild hparent
          members := fun j =>
            (members_addChild hparent j).trans (List.append_nil _).symm
          new_job := by
            rintro p child hjob
            obtain ⟨-, rfl⟩ := Prod.mk.inj (Option.some.inj hjob)
            exact ⟨rfl, Nat.lt_succ_self _⟩
          new_process := nofun }
    | noJob | refusedProcess =>
        exact .quiet (Nat.le_refl _) (Nat.le_succ _) (fun _ => rfl)
          (fun _ => rfl)
    | createdProcess hjob =>
        exact {
          jobs_le := Nat.le_refl _
          processes_le := Nat.le_succ _
          children := fun j =>
            (listOf_set_same hjob _ (by rfl) j).trans (List.append_nil _).symm
          members := listOf_set_append hjob _ rfl
          new_job := nofun
          new_process := by
            rintro p x hprocess
            obtain ⟨-, rfl⟩ := Prod.mk.inj (Option.some.inj hprocess)
            exact ⟨rfl, Nat.lt_succ_self _⟩ }
  · exact .quiet (Nat.le_of_eq (setState_next state).symm)
      (Nat.le_of_eq (setState_processes state).symm)
      (listOf_setState fun _ => rfl) (listOf_setState fun _ => rfl)

/-- The child jobs are the jobs whose creation succeeded. -/
theorem children_keptBy : children.KeptBy governed admittedJob where
  next_le := fun o a => (books_of_step o a).jobs_le
  items_step := fun o a => (books_of_step o a).children
  number_admitted := fun o a => (books_of_step o a).new_job

/-- The processes are those whose creation succeeded. -/
theorem members_keptBy : members.KeptBy governed admittedProcess where
  next_le := fun o a => (books_of_step o a).processes_le
  items_step := fun o a => (books_of_step o a).members
  number_admitted := fun o a => (books_of_step o a).new_process

/-! ## Heights -/

/-- The new job of a store, if any, has a height of the type `u32`. -/
theorem height_alloc {jobs : Store JobDispatcher} {x : JobDispatcher}
    (h : ∀ j, jobs.Allocated j → 0 ≤ (jobs.get j).maxHeight)
    (hx : 0 ≤ x.maxHeight) (j : ℕ) (hj : (jobs.alloc x).Allocated j) :
    0 ≤ ((jobs.alloc x).get j).maxHeight := by
  rcases (jobs.allocated_alloc x j).mp hj with hj | rfl
  · rw [jobs.get_alloc_of_allocated hj]
    exact h j hj
  · rwa [jobs.get_alloc_self]

/-- Writing back a job with its height keeps all heights. -/
theorem height_set {jobs : Store JobDispatcher} {x : JobDispatcher} {p : ℕ}
    (h : ∀ j, jobs.Allocated j → 0 ≤ (jobs.get j).maxHeight)
    (hx : x.maxHeight = (jobs.get p).maxHeight) (j : ℕ)
    (hj : jobs.Allocated j) : 0 ≤ ((jobs.set p x).get j).maxHeight := by
  rw [Store.get_set]
  split
  next heq =>
    rw [hx, ← heq]
    exact h j hj
  next => exact h j hj

theorem height_childOf {o : Objects} {parent : ℕ}
    (h : ∀ j, o.jobs.Allocated j → 0 ≤ (o.jobs.get j).maxHeight)
    (hparent : o.jobs.Allocated parent)
    (hheight : (o.jobs.get parent).maxHeight ≠ 0) :
    0 ≤ (o.childOf parent).maxHeight := by
  have hle := h parent hparent
  simp only [Objects.childOf]
  omega

theorem Transition.height {o o' : Objects} {op : Op} {reply : Reply}
    (ht : Transition o op o' reply)
    (h : ∀ j, o.jobs.Allocated j → 0 ≤ (o.jobs.get j).maxHeight) :
    ∀ j, o'.jobs.Allocated j → 0 ≤ (o'.jobs.get j).maxHeight := by
  cases ht with
  | createdRoot => exact height_alloc h (by simp [rootJobMaxHeight])
  | noParent | full | noJob | refusedProcess => exact h
  | refused hparent hheight =>
      exact height_alloc h (height_childOf h hparent hheight)
  | created hparent hheight =>
      exact height_set
        (height_alloc h (height_childOf h hparent hheight)) rfl
  | createdProcess => exact height_set h rfl

theorem forest_init : Forest Objects.init where
  height := fun _ hj => absurd hj (Nat.not_lt_zero _)
  jobs := fun j x hx => by simp [children, listOf, Objects.init,
    Store.Allocated] at hx
  procs := fun j x hx => by simp [members, listOf, Objects.init,
    Store.Allocated] at hx

theorem forest_preserved : governed.Preserves Forest := by
  intro o a h
  refine ⟨?_, children_keptBy.numbered_step h.jobs a,
    members_keptBy.numbered_step h.procs a⟩
  rcases a with op | ⟨job, state⟩
  · exact (step_transition o op).height h.height
  · intro j hj
    simp only [governed, setState] at hj ⊢
    split at hj
    next hjob =>
      rw [if_pos hjob]
      exact height_set h.height (by rfl) j hj
    next hjob =>
      rw [if_neg hjob]
      exact h.height j hj

/-! ## Decisions and refusals -/

/-- What a job can list. -/
inductive Child
  | job (reference : ℕ)
  | process (reference : ℕ)

/-- The event constructed this object. -/
def Constructed (e : GovernedEvent) : Child → Prop
  | .job reference =>
      ¬ e.before.jobs.Allocated reference ∧ e.after.jobs.Allocated reference
  | .process reference =>
      e.before.processes ≤ reference ∧ reference < e.after.processes

/-- A call on a job is decided by the state and the height of the job, and a
call that succeeds hands out the object that it has constructed and that the
history counts as admitted. -/
structure Decided (e : GovernedEvent) : Prop where
  create : ∀ parent flags, e.action = .call (.create parent flags) →
    e.before.jobs.Allocated parent →
    ∃ status handle rights,
      e.reply = some (.job (.ok (status, handle, rights))) ∧
      (status = .ok ↔ (e.before.jobs.get parent).state = .ready ∧
        0 < (e.before.jobs.get parent).maxHeight) ∧
      (status = .ok → ∃ child, handle = some child ∧
        admittedJob e = some (parent, child) ∧ Constructed e (.job child)) ∧
      (status ≠ .ok → status = .errOutOfRange)
  createProcess : ∀ job name flags,
    e.action = .call (.createProcess job name flags) →
    e.before.jobs.Allocated job →
    ∃ result, e.reply = some (.process (.ok result)) ∧
      (result.isOk = true ↔ (e.before.jobs.get job).state = .ready) ∧
      (result.isOk = true → ∃ made, result.ok = some made ∧
        admittedProcess e = some (job, made.1) ∧
        Constructed e (.process made.1.ref)) ∧
      (result.isOk = false → result.unwrapErr = .ok .errBadState)

/-- The event reports a creation without success. -/
def Refused (e : GovernedEvent) : Prop :=
  match e.reply with
  | some (.job (.ok (status, _, _))) => status ≠ .ok
  | some (.process (.ok result)) => result.isOk = false
  | _ => False

def Lists (o : Objects) (job : ℕ) : Child → Prop
  | .job child => child ∈ listOf o.jobs JobDispatcher.jobs job
  | .process reference =>
      ∃ p ∈ listOf o.jobs JobDispatcher.procs job, p.ref = reference

/-- What can be found from a job by following lists. -/
inductive Reachable (o : Objects) (job : ℕ) : Child → Prop
  | listed {x : Child} (h : Lists o job x) : Reachable o job x
  | deeper {j : ℕ} {x : Child} (hj : Reachable o job (.job j))
      (h : Lists o j x) : Reachable o job x

theorem Reachable.exists_lists {o : Objects} {job : ℕ} {x : Child}
    (h : Reachable o job x) : ∃ j, Lists o j x := by
  rcases h with h | ⟨-, h⟩
  · exact ⟨_, h⟩
  · exact ⟨_, h⟩

theorem lists_job_iff {o : Objects} {job child : ℕ} :
    Lists o job (.job child) ↔ 0 < children.count o job child := by
  rw [Ledger.count_pos_iff]
  simp [Lists, children]

theorem lists_process_iff {o : Objects} {job reference : ℕ} :
    Lists o job (.process reference) ↔
      0 < members.count o job reference := by
  rw [Ledger.count_pos_iff]
  rfl

theorem decided_of_step {o : Objects} (ho : Forest o) (a : Action) :
    Decided (governed.event o a) := by
  constructor
  · rintro parent flags ha hparent
    obtain rfl : a = _ := ha
    simp only [Machine.event, governed] at hparent ⊢
    have hle := ho.height parent hparent
    have ht := step_transition o (.create parent flags)
    generalize step o (.create parent flags) = done at ht ⊢
    obtain ⟨o', reply⟩ := done
    cases ht with
    | noParent hfree => exact absurd hparent hfree
    | full _ hheight =>
        exact ⟨_, _, _, rfl,
          ⟨nofun, fun h => absurd hheight (Int.ne_of_gt h.2)⟩,
          nofun, fun _ => rfl⟩
    | refused _ _ hstate =>
        exact ⟨_, _, _, rfl, ⟨nofun, fun h => absurd h.1 hstate⟩,
          nofun, fun _ => rfl⟩
    | created _ hheight hstate =>
        refine ⟨_, _, _, rfl, ?_, fun _ => ⟨_, rfl, rfl, ?_⟩,
          fun h => absurd rfl h⟩
        · simp only [hstate, true_and, true_iff]
          omega
        · exact ⟨Nat.lt_irrefl _, Nat.lt_succ_self _⟩
  · rintro job name flags ha hjob
    obtain rfl : a = _ := ha
    simp only [Machine.event, governed] at hjob ⊢
    have ht := step_transition o (.createProcess job name flags)
    generalize step o (.createProcess job name flags) = done at ht ⊢
    obtain ⟨o', reply⟩ := done
    cases ht with
    | noJob hfree => exact absurd hjob hfree
    | refusedProcess _ hstate =>
        exact ⟨_, rfl, by simp [hstate, Result.isOk, Result.Err],
          fun h => by simp [Result.isOk, Result.Err] at h, fun _ => rfl⟩
    | createdProcess _ hstate =>
        refine ⟨_, rfl, by simp [hstate, Result.isOk, Result.Ok],
          fun _ => ⟨_, rfl, rfl, ?_⟩,
          fun h => by simp [Result.isOk, Result.Ok] at h⟩
        exact ⟨Nat.le_refl _, Nat.lt_succ_self _⟩

/-- A refusal admits nothing and leaves every job as it is. -/
theorem refused_step {o : Objects} {a : Action}
    (h : Refused (governed.event o a)) :
    admittedJob (governed.event o a) = none ∧
      admittedProcess (governed.event o a) = none ∧
      ∀ j, o.jobs.Allocated j →
        (governed.step o a).1.jobs.get j = o.jobs.get j := by
  rcases a with op | ⟨job, state⟩
  · have ht := step_transition o op
    simp only [governed, Machine.event, Refused, admittedJob,
      admittedProcess] at h ⊢
    generalize step o op = done at ht h ⊢
    obtain ⟨o', reply⟩ := done
    cases ht with
    | createdRoot | noParent | noJob => exact h.elim
    | full => exact ⟨rfl, rfl, fun _ _ => rfl⟩
    | refused =>
        exact ⟨rfl, rfl, fun j hj => o.jobs.get_alloc_of_allocated hj _⟩
    | created => exact absurd rfl h
    | refusedProcess => exact ⟨rfl, rfl, fun _ _ => rfl⟩
    | createdProcess => simp [Result.isOk, Result.Ok] at h
  · exact h.elim

/-- What a refused call constructed is in no list, then and later. -/
theorem not_lists_of_refused {o : Objects} (ho : Forest o)
    {actions : List Action} {e : GovernedEvent}
    (he : e ∈ governed.trace o actions) (hrefused : Refused e) {x : Child}
    (hx : Constructed e x) (job : ℕ) :
    ¬ Lists (governed.exec o actions) job x := by
  obtain ⟨hnoJob, hnoProcess, -⟩ :
      admittedJob e = none ∧ admittedProcess e = none ∧ True := by
    obtain ⟨front, a, rest, rfl, rfl⟩ := governed.mem_trace_iff.mp he
    exact ⟨(refused_step hrefused).1, (refused_step hrefused).2.1, trivial⟩
  rcases x with r | r
  · obtain ⟨hfree, hmade⟩ := hx
    rw [lists_job_iff, children_keptBy.count_exec_of_not_admitted ho.jobs he
      hnoJob (Nat.le_of_not_lt hfree) hmade]
    exact Nat.lt_irrefl 0
  · obtain ⟨hfree, hmade⟩ := hx
    rw [lists_process_iff, members_keptBy.count_exec_of_not_admitted ho.procs
      he hnoProcess hfree hmade]
    exact Nat.lt_irrefl 0

/-- Admission refines the history of creations: every call is decided by the
job it is made on; a list is its first contents followed by the children whose
creation succeeded; a created process is in one list only; and a refused call
changes no list, so that nothing it constructed can be reached. -/
theorem admission_refines_history (o : Objects) (ho : Forest o)
    (actions : List Action) :
    let events := governed.trace o actions
    let final := governed.exec o actions
    (∀ e ∈ events, Decided e) ∧
    (∀ job, listOf final.jobs JobDispatcher.jobs job =
      listOf o.jobs JobDispatcher.jobs job ++
        events.flatMap (fun e => Ledger.entry job (admittedJob e))) ∧
    (∀ job, listOf final.jobs JobDispatcher.procs job =
      listOf o.jobs JobDispatcher.procs job ++
        events.flatMap (fun e => Ledger.entry job (admittedProcess e))) ∧
    (∀ e ∈ events, ∀ job p, admittedProcess e = some (job, p) →
      ∀ j, (listOf final.jobs JobDispatcher.procs j).countP
        (fun q => q.ref = p.ref) = if j = job then 1 else 0) ∧
    (∀ e ∈ events, Refused e →
      (∀ job, e.before.jobs.Allocated job →
        e.after.jobs.get job = e.before.jobs.get job) ∧
      ∀ x, Constructed e x → ∀ job, ¬ Reachable final job x) := by
  intro events final
  refine ⟨?_, children_keptBy.items_exec o actions,
    members_keptBy.items_exec o actions, ?_, ?_⟩
  · intro e he
    obtain ⟨t, a, -, ht, rfl⟩ := forest_preserved.event_of_mem ho he
    exact decided_of_step ht a
  · intro e he job p hadm j
    exact members_keptBy.count_exec_of_admitted ho.procs he hadm j
  · intro e he hrefused
    constructor
    · obtain ⟨front, a, rest, -, rfl⟩ := governed.mem_trace_iff.mp he
      exact (refused_step hrefused).2.2
    · intro x hx job hreach
      obtain ⟨j, hj⟩ := hreach.exists_lists
      exact not_lists_of_refused ho he hrefused hx j hj

/-- A job that is being killed keeps the children it had and gets no others:
of the two jobs made under it the second one is lost. -/
theorem admission_refines_history_killing :
    let actions : List Action :=
      [.call .createRoot, .call (.create 0 0),
        .call (.createProcess 0 "init" 0), .setState 0 .killing,
        .call (.create 0 0), .call (.createProcess 0 "late" 0)]
    let final := governed.exec Objects.init actions
    Forest Objects.init ∧
      (∀ e ∈ governed.trace Objects.init actions, Decided e) ∧
      listOf final.jobs JobDispatcher.jobs 0 = [1] ∧
      listOf final.jobs JobDispatcher.procs 0 = [⟨0, "init"⟩] ∧
      (∀ j, (listOf final.jobs JobDispatcher.procs j).countP
        (fun q => q.ref = 0) = if j = 0 then 1 else 0) ∧
      ∀ job, ¬ Reachable final job (.job 2) := by
  intro actions final
  obtain ⟨hdecided, hjobs, hprocs, honce, hrefused⟩ :=
    admission_refines_history Objects.init forest_init actions
  refine ⟨forest_init, hdecided, hjobs 0, hprocs 0, ?_, ?_⟩
  · have hinit : governed.event (governed.exec Objects.init (actions.take 2))
        (.call (.createProcess 0 "init" 0)) ∈
          governed.trace Objects.init actions :=
      governed.mem_trace_iff.mpr ⟨actions.take 2, _, actions.drop 3, rfl, rfl⟩
    exact honce _ hinit 0 ⟨0, "init"⟩ rfl
  · have hlate : governed.event (governed.exec Objects.init (actions.take 4))
        (.call (.create 0 0)) ∈ governed.trace Objects.init actions :=
      governed.mem_trace_iff.mpr ⟨actions.take 4, _, actions.drop 5, rfl, rfl⟩
    have houtcome : Status.errOutOfRange ≠ .ok := by decide
    exact (hrefused _ hlate houtcome).2 (.job 2)
      ⟨(by decide : ¬ 2 < 2), (by decide : 2 < 3)⟩

end Fiber.Kernel.Job
