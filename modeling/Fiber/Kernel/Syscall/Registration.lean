import Fiber.Kernel.Job.Forest
import Fiber.Kernel.Syscall.ProcessCreate

/-!
# The job a new process is registered under

The job handle is looked up with one right, and with another one if that
fails.  The new process belongs under the job of the lookup that succeeded, and
what a failed lookup returns as its dispatcher must not matter.  The source uses
the job of the first lookup, also when it has failed.
-/

namespace Fiber.Kernel

open Fiber.Support Job

/-- `job` lists one new process more, and nothing else about the jobs
changes. -/
def RegisteredUnder (job : ℕ) (o o' : Objects) : Prop :=
  ∃ process : ProcessDispatcher, process.ref = o.processes ∧
    ∀ q, o'.jobs.get q =
      { o.jobs.get q with
        procs := (o.jobs.get q).procs ++ if q = job then [process] else [] }

/-- The environments differ at most in the dispatchers that failed lookups
return. -/
structure Environment.SameOnSuccess (env env' : Environment) : Prop where
  policy : env'.enforceBasicPolicy = env.enforceBasicPolicy
  userspaceHandle : env'.makeUserspaceHandle = env.makeUserspaceHandle
  decode : env'.decode = env.decode
  status : ∀ up handle rights,
    (env'.getDispatcherWithRights up handle rights).1 =
      (env.getDispatcherWithRights up handle rights).1
  dispatcher : ∀ up handle rights,
    (env.getDispatcherWithRights up handle rights).1 = .ok →
      (env'.getDispatcherWithRights up handle rights).2 =
        (env.getDispatcherWithRights up handle rights).2

/-- For a caller that comes as far as the lookups: the process is registered
under the job of the first lookup if that succeeds, under the job of the second
one if only that succeeds, and else the status of the second one is returned
and no job changes.  For every caller, the dispatchers of failed lookups are
not used: whatever they are, the call ends in the same way. -/
structure RegistersResolvedJob (env : Environment)
    (tlScopes : List ProcessContext) (args : ProcessCreateArgs)
    (o : Objects) : Prop where
  manage : ∀ up, Admitted env tlScopes args up →
    (env.manageLookup up args).1 = .ok →
      RegisteredUnder (env.manageLookup up args).2 o
        (perform (sysProcessCreate env tlScopes args) o).1
  write : ∀ up, Admitted env tlScopes args up →
    (env.manageLookup up args).1 ≠ .ok →
    (env.writeLookup up args).1 = .ok →
      RegisteredUnder (env.writeLookup up args).2 o
        (perform (sysProcessCreate env tlScopes args) o).1
  neither : ∀ up, Admitted env tlScopes args up →
    (env.manageLookup up args).1 ≠ .ok →
    (env.writeLookup up args).1 ≠ .ok →
      (perform (sysProcessCreate env tlScopes args) o).2 =
          .ok (env.writeLookup up args).1 ∧
        ∀ q, (perform (sysProcessCreate env tlScopes args) o).1.jobs.get q =
          o.jobs.get q
  unused : ∀ env', env.SameOnSuccess env' →
    perform (sysProcessCreate env' tlScopes args) o =
      perform (sysProcessCreate env tlScopes args) o

variable {env env' : Environment} {tlScopes : List ProcessContext}
  {args : ProcessCreateArgs} {up : ProcessDispatcher} {o o' : Objects}
  {job job' : ℕ}

theorem addProcess_registered (o : Objects) (job : ℕ) (name : String) :
    RegisteredUnder job o (o.addProcess job name) :=
  ⟨o.processNamed name, rfl, fun q => addProcess_get o job q name⟩

theorem RegisteredUnder.procs_ne (h : RegisteredUnder job o o') :
    (o'.jobs.get job).procs ≠ (o.jobs.get job).procs := by
  obtain ⟨process, -, hprocess⟩ := h
  rw [hprocess]
  simp

/-! ## What the syscall does after the lookups -/

/-- The process always goes to the job of the first lookup. -/
theorem perform_of_lookup (hadmitted : Admitted env tlScopes args up)
    (hlookup : LookupSucceeds env up args)
    (hjob : o.jobs.Allocated (env.manageLookup up args).2)
    (hstate : (o.jobs.get (env.manageLookup up args).2).state = .ready) :
    RegisteredUnder (env.manageLookup up args).2 o
      (perform (sysProcessCreate env tlScopes args) o).1 := by
  rw [sysProcessCreate_eq hadmitted hlookup, perform,
    createWithHandles_of_ready hjob hstate]
  exact addProcess_registered _ _ _

theorem perform_of_no_job (hadmitted : Admitted env tlScopes args up)
    (hlookup : LookupSucceeds env up args)
    (hjob : ¬ o.jobs.Allocated (env.manageLookup up args).2) :
    (perform (sysProcessCreate env tlScopes args) o).1 =
      o.constructProcess := by
  rw [sysProcessCreate_eq hadmitted hlookup, perform,
    createWithHandles_of_not_allocated hjob]

theorem perform_of_lookups_fail (hadmitted : Admitted env tlScopes args up)
    (hlookup : ¬ LookupSucceeds env up args) :
    perform (sysProcessCreate env tlScopes args) o =
      (o, .ok (env.writeLookup up args).1) := by
  rw [perform, sysProcessCreate_of_lookups_fail hadmitted hlookup]

/-- A caller that does not come as far as the lookups changes nothing. -/
theorem perform_of_not_admitted
    (hrefused : ∀ up, ¬ Admitted env tlScopes args up) :
    perform (sysProcessCreate env tlScopes args) o =
      (o, if args.ValidOptions then
          (ProcessDispatcher.getCurrent tlScopes).map
            fun up => env.enforceBasicPolicy up fxPolNewProcess
        else .ok .errInvalidArgs) := by
  rw [perform]
  by_cases hoptions : args.ValidOptions
  · rw [if_pos hoptions]
    rcases hcurrent : ProcessDispatcher.getCurrent tlScopes with e | up
    · rw [sysProcessCreate_of_no_current hoptions hcurrent]
      rfl
    · have hpolicy : env.enforceBasicPolicy up fxPolNewProcess ≠ .ok :=
        fun hpolicy => hrefused up ⟨hoptions, hcurrent, hpolicy⟩
      rw [sysProcessCreate_of_policy_ne hoptions hcurrent hpolicy]
      rfl
  · rw [if_neg hoptions, sysProcessCreate_of_invalid_options hoptions]

/-! ## Dispatchers of failed lookups -/

namespace Environment.SameOnSuccess

theorem admitted_iff (h : env.SameOnSuccess env') :
    Admitted env' tlScopes args up ↔ Admitted env tlScopes args up := by
  constructor <;> rintro ⟨hoptions, hcurrent, hpolicy⟩
  · exact ⟨hoptions, hcurrent, h.policy ▸ hpolicy⟩
  · exact ⟨hoptions, hcurrent, h.policy.symm ▸ hpolicy⟩

/-- If the first lookup succeeds or the second one fails, the syscall does not
see the dispatcher of a failed lookup. -/
theorem perform_eq (h : env.SameOnSuccess env')
    (hlookups : ∀ up, Admitted env tlScopes args up →
      (env.manageLookup up args).1 ≠ .ok →
        (env.writeLookup up args).1 ≠ .ok) :
    perform (sysProcessCreate env' tlScopes args) o =
      perform (sysProcessCreate env tlScopes args) o := by
  by_cases hreached : ∃ up, Admitted env tlScopes args up
  · obtain ⟨up, hadmitted⟩ := hreached
    have hadmitted' : Admitted env' tlScopes args up :=
      h.admitted_iff.mpr hadmitted
    have hmanage' : (env'.manageLookup up args).1 =
        (env.manageLookup up args).1 := h.status _ _ _
    have hwrite' : (env'.writeLookup up args).1 =
        (env.writeLookup up args).1 := h.status _ _ _
    by_cases hmanage : (env.manageLookup up args).1 = .ok
    · have hjob : (env'.manageLookup up args).2 =
          (env.manageLookup up args).2 := h.dispatcher _ _ _ hmanage
      rw [sysProcessCreate_eq hadmitted' (Or.inl (hmanage'.trans hmanage)),
        sysProcessCreate_eq hadmitted (Or.inl hmanage), hjob]
      simp only [createWithHandles, h.userspaceHandle]
    · have hwrite := hlookups up hadmitted hmanage
      rw [perform_of_lookups_fail hadmitted' (not_or.mpr
          ⟨hmanage' ▸ hmanage, hwrite' ▸ hwrite⟩),
        perform_of_lookups_fail hadmitted (not_or.mpr ⟨hmanage, hwrite⟩),
        hwrite']
  · have hrefused : ∀ up, ¬ Admitted env tlScopes args up :=
      fun up hadmitted => hreached ⟨up, hadmitted⟩
    rw [perform_of_not_admitted hrefused, perform_of_not_admitted
      fun up hadmitted => hrefused up (h.admitted_iff.mp hadmitted), h.policy]

end Environment.SameOnSuccess

/-- The environment in which every lookup that fails returns `job`. -/
def Environment.failingWith (env : Environment) (job : ℕ) : Environment :=
  { env with
    getDispatcherWithRights := fun up handle rights =>
      let answer := env.getDispatcherWithRights up handle rights
      if answer.1 = .ok then answer else (answer.1, job) }

theorem failingWith_of_ok {handle : FxHandle} {rights : FxRights}
    (hok : (env.getDispatcherWithRights up handle rights).1 = .ok) :
    (env.failingWith job).getDispatcherWithRights up handle rights =
      env.getDispatcherWithRights up handle rights :=
  if_pos hok

theorem failingWith_of_ne {handle : FxHandle} {rights : FxRights}
    (hne : (env.getDispatcherWithRights up handle rights).1 ≠ .ok) :
    (env.failingWith job).getDispatcherWithRights up handle rights =
      ((env.getDispatcherWithRights up handle rights).1, job) :=
  if_neg hne

theorem sameOnSuccess_failingWith (env : Environment) (job : ℕ) :
    env.SameOnSuccess (env.failingWith job) where
  policy := rfl
  userspaceHandle := rfl
  decode := rfl
  status up handle rights := by
    by_cases hok : (env.getDispatcherWithRights up handle rights).1 = .ok
    · rw [failingWith_of_ok hok]
    · rw [failingWith_of_ne hok]
  dispatcher up handle rights hok := by rw [failingWith_of_ok hok]

/-- After a failed first lookup and a successful second one, the outcome
depends on the dispatcher of the failed one: with a job of the forest there is
a new process, and with anything else there is none. -/
theorem not_unused_of_fallback (hadmitted : Admitted env tlScopes args up)
    (hmanage : (env.manageLookup up args).1 ≠ .ok)
    (hwrite : (env.writeLookup up args).1 = .ok)
    (hjob : o.jobs.Allocated job) (hstate : (o.jobs.get job).state = .ready) :
    ¬ ∀ env', env.SameOnSuccess env' →
      perform (sysProcessCreate env' tlScopes args) o =
        perform (sysProcessCreate env tlScopes args) o := by
  intro hunused
  have hadmitted' : ∀ k, Admitted (env.failingWith k) tlScopes args up :=
    fun k => (sameOnSuccess_failingWith env k).admitted_iff.mpr hadmitted
  have hlookup : ∀ k, LookupSucceeds (env.failingWith k) up args := fun k =>
    Or.inr (((sameOnSuccess_failingWith env k).status _ _ _).trans hwrite)
  have hdispatcher : ∀ k,
      ((env.failingWith k).manageLookup up args).2 = k := by
    intro k
    rw [Environment.manageLookup, failingWith_of_ne hmanage]
  have hnew : RegisteredUnder job o
      (perform (sysProcessCreate env tlScopes args) o).1 := by
    rw [← hunused _ (sameOnSuccess_failingWith env job)]
    have hregistered := perform_of_lookup (o := o) (hadmitted' job)
      (hlookup job)
    rw [hdispatcher job] at hregistered
    exact hregistered hjob hstate
  have hfree : ¬ o.jobs.Allocated o.jobs.next := Nat.lt_irrefl _
  have hnone : (perform (sysProcessCreate env tlScopes args) o).1 =
      o.constructProcess := by
    rw [← hunused _ (sameOnSuccess_failingWith env o.jobs.next)]
    have hlost := perform_of_no_job (o := o) (hadmitted' o.jobs.next)
      (hlookup o.jobs.next)
    rw [hdispatcher] at hlost
    exact hlost hfree
  rw [hnone] at hnew
  exact hnew.procs_ne rfl

/-- In every job forest, with lookups that succeed only for jobs: the process
is registered as it should be, without the use of a failed lookup's dispatcher,
exactly if the first lookup succeeds or the second one fails, when the caller
comes as far as the lookups. -/
theorem registers_resolved_job_iff (ops : List Op) (env : Environment)
    (tlScopes : List ProcessContext) (args : ProcessCreateArgs)
    (hjobs : ∀ up rights,
      (env.getDispatcherWithRights up args.jobHandle rights).1 = .ok →
        (machine.exec Objects.init ops).jobs.Allocated
          (env.getDispatcherWithRights up args.jobHandle rights).2) :
    RegistersResolvedJob env tlScopes args (machine.exec Objects.init ops) ↔
      ∀ up, Admitted env tlScopes args up →
        (env.manageLookup up args).1 ≠ .ok →
          (env.writeLookup up args).1 ≠ .ok := by
  have hgrown : Grown (machine.exec Objects.init ops).jobs :=
    grown_preserved.exec Grown.init ops
  generalize machine.exec Objects.init ops = o at hjobs hgrown ⊢
  constructor
  · intro hregisters up hadmitted hmanage hwrite
    have hjob := hjobs up _ hwrite
    exact not_unused_of_fallback hadmitted hmanage hwrite hjob
      (hgrown.ready _ hjob) hregisters.unused
  · intro hlookups
    refine ⟨?_, ?_, ?_, fun env' h => h.perform_eq hlookups⟩
    · intro up hadmitted hmanage
      have hjob := hjobs up _ hmanage
      exact perform_of_lookup hadmitted (Or.inl hmanage) hjob
        (hgrown.ready _ hjob)
    · intro up hadmitted hmanage hwrite
      exact absurd hwrite (hlookups up hadmitted hmanage)
    · intro up hadmitted hmanage hwrite
      rw [perform_of_lookups_fail hadmitted (not_or.mpr ⟨hmanage, hwrite⟩)]
      exact ⟨rfl, fun _ => rfl⟩

/-- A handle with the right to manage processes and no other one.  The lookup
that fails returns something that is no job. -/
theorem registers_resolved_job_sample :
    let lookup : ProcessDispatcher → FxHandle → FxRights → Status × ℕ :=
      fun _ _ rights =>
        if rights = fxRightManageProcess then (.ok, 1) else (.errBadHandle, 9)
    RegistersResolvedJob (.ofLookup lookup)
      [⟨⟨0, "userboot"⟩⟩, ⟨⟨1, "test0"⟩⟩] ⟨5, ⟨[], 0, 0⟩, 0, 0, 0, 1⟩
      (machine.exec Objects.init [.createRoot, .create 0 0]) := by
  intro lookup
  refine (registers_resolved_job_iff [.createRoot, .create 0 0] _ _ _
    ?_).mpr ?_
  · intro up rights hok
    by_cases hright : rights = fxRightManageProcess
    · simp only [Environment.ofLookup, lookup, if_pos hright]
      exact (by decide : 1 < 2)
    · simp [Environment.ofLookup, lookup, if_neg hright] at hok
  · intro up _ hmanage
    exact absurd rfl hmanage

/-- A handle with the right to write only.  The lookup that fails returns
something that is no job, and the process is created there. -/
theorem not_registers_resolved_job :
    let lookup : ProcessDispatcher → FxHandle → FxRights → Status × ℕ :=
      fun _ _ rights =>
        if rights = fxRightWrite then (.ok, 1) else (.errBadHandle, 9)
    let o := machine.exec Objects.init [.createRoot, .create 0 0]
    (∀ up handle rights, (lookup up handle rights).1 = .ok →
      o.jobs.Allocated (lookup up handle rights).2) ∧
    ¬ RegistersResolvedJob (.ofLookup lookup)
      [⟨⟨0, "userboot"⟩⟩, ⟨⟨1, "test0"⟩⟩] ⟨5, ⟨[], 0, 0⟩, 0, 0, 0, 1⟩ o := by
  intro lookup o
  constructor
  · intro up handle rights hok
    by_cases hright : rights = fxRightWrite
    · simp only [lookup, if_pos hright]
      exact (by decide : 1 < 2)
    · simp [lookup, if_neg hright] at hok
  · intro hregisters
    have hadmitted : Admitted (.ofLookup lookup)
        [⟨⟨0, "userboot"⟩⟩, ⟨⟨1, "test0"⟩⟩] ⟨5, ⟨[], 0, 0⟩, 0, 0, 0, 1⟩
        ⟨1, "test0"⟩ := ⟨Or.inr rfl, rfl, rfl⟩
    have hresolved := hregisters.write _ hadmitted (by decide) (by decide)
    have hnone : ¬ o.jobs.Allocated 9 := (by decide : ¬ 9 < 2)
    rw [perform_of_no_job hadmitted (Or.inr (by decide)) hnone] at hresolved
    exact hresolved.procs_ne rfl

end Fiber.Kernel
