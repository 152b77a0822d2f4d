import Fiber.Sdk.Handles
import Mathlib.Tactic.ByContra

/-!
# How the wrappers report failures

`Job.create` and `ChannelPair.create` look at the status of the kernel.  The
wrappers of a child job and of a child process do not, and take over what is in
the reference.  A kernel that makes two handles in sequence can have written the
first one when it fails.  `Process.start` returns a constant, which is not even
the number of OK.
-/

namespace Fiber.Sdk

open Sys

/-- The kernel answered OK, and the wrapper holds what it wrote to the first
reference. -/
def Reply.Grants (reply : Reply) (wrapper : Handle) : Prop :=
  reply.status = Status.ok.number ∧ reply.out 0 = .ok wrapper.raw

section

variable (globals : Entry → Bool) (behaves : Callee → SysCall → HostCode Reply)

/-- What the wrappers are to make of the answers of a kernel in state `h`. -/
structure ReportsFailures (h : Host) (job : Job) (process : Process)
    (name : String) (entry : ℕ) (arg1 : Handle) : Prop where
  create : ∀ reply h₁ made h₂,
    (fxJobCreate globals behaves job.raw 0 0).run h = .ok reply h₁ →
    (Job.create globals behaves job name).run h = .ok made h₂ →
    made.isValid = true → reply.Grants made.toHandle
  createChildJob : ∀ reply h₁ made h₂,
    (fxJobCreate globals behaves job.raw 0 0).run h = .ok reply h₁ →
    (Job.createChildJob globals behaves job).run h = .ok made h₂ →
    made.isValid = true → reply.Grants made.toHandle
  createChildProcess : ∀ reply h₁ made h₂,
    (fxProcessCreate globals behaves job.raw (.text name) (stringLength name) 0
      0 1).run h = .ok reply h₁ →
    (Job.createChildProcess globals behaves job name).run h = .ok made h₂ →
    made.isValid = true → reply.Grants made.toHandle
  createPair : ∀ reply h₁ pair h₂,
    (fxChannelCreate globals behaves process.raw 0 1).run h = .ok reply h₁ →
    (ChannelPair.create globals behaves process).run h = .ok pair h₂ →
    pair.first ≠ none ∨ pair.second ≠ none →
    reply.status = Status.ok.number
  same_job : (Job.create globals behaves job name).run h =
    (Job.createChildJob globals behaves job).run h
  start : ∀ reply h₁,
    (fxProcessStart globals behaves process.raw entry arg1.raw).run h =
      .ok reply h₁ →
    (Process.start globals behaves process entry arg1).run h =
      .ok reply.status h₁

/-- When the kernel fails, it leaves the reference for a job as it was and does
not put a handle into the one for a process; and it starts processes with
status 0 only. -/
structure FailsCleanly (h : Host) (job : Job) (process : Process)
    (name : String) (entry : ℕ) (arg1 : Handle) : Prop where
  jobs : ∀ reply h₁,
    (fxJobCreate globals behaves job.raw 0 0).run h = .ok reply h₁ →
    reply.status = Status.ok.number ∨ reply.out 0 = .ok fxInvalidHandle
  processes : ∀ reply h₁,
    (fxProcessCreate globals behaves job.raw (.text name) (stringLength name) 0
      0 1).run h = .ok reply h₁ →
    reply.status = Status.ok.number ∨
      ∀ value, reply.out 0 = .ok value → value = fxInvalidHandle
  starts : ∀ reply h₁,
    (fxProcessStart globals behaves process.raw entry arg1.raw).run h =
      .ok reply h₁ → reply.status = 0

end

/-! ## One wrapper -/

section

variable {globals : Entry → Bool} {behaves : Callee → SysCall → HostCode Reply}
  {h h₁ h₂ : Host} {job made : Job} {process child : Process}
  {pair : ChannelPair} {name : String} {entry : ℕ} {arg1 : Handle}
  {reply : Reply} {e : JsError} {value : FxHandle}

theorem isValid_iff {handle : Handle} :
    handle.isValid = true ↔ handle.raw ≠ fxInvalidHandle := by
  simp [Handle.isValid, Handle.raw]

/-- A wrapper around a value that is read holds that value. -/
theorem wrap_eq_ok_iff {α : Type} {f : FxHandle → α} {g : α → FxHandle}
    {a : α} (hf : ∀ a, f (g a) = a) (hg : ∀ value, g (f value) = value)
    {out : Except JsError FxHandle} :
    (do
      let value ← orThrow out
      pure (f value) : HostCode α).run h = .ok a h₂ ↔
      out = .ok (g a) ∧ h = h₂ := by
  rcases out with e | value
  · exact iff_of_false nofun nofun
  · constructor
    · intro hrun
      obtain ⟨rfl, rfl⟩ := EStateM.Result.ok.inj hrun
      exact ⟨by rw [hg], rfl⟩
    · rintro ⟨hvalue, rfl⟩
      rw [Except.ok.inj hvalue, ← hf a, hg]
      rfl

theorem create_of_error
    (hrun : (fxJobCreate globals behaves job.raw 0 0).run h = .error e h₁) :
    (Job.create globals behaves job name).run h = .error e h₁ := by
  rw [Job.create, EStateM.run_bind, hrun]

theorem create_of_failed
    (hrun : (fxJobCreate globals behaves job.raw 0 0).run h = .ok reply h₁)
    (hstatus : reply.status ≠ Status.ok.number) :
    (Job.create globals behaves job name).run h =
      .ok ⟨⟨fxInvalidHandle⟩⟩ h₁ := by
  simp only [Job.create, EStateM.run_bind, hrun, ne_eq, hstatus,
    not_false_eq_true, if_true, EStateM.run_pure]

/-- When the kernel succeeds, the two ways to create a job agree. -/
theorem create_of_ok
    (hrun : (fxJobCreate globals behaves job.raw 0 0).run h = .ok reply h₁)
    (hstatus : reply.status = Status.ok.number) :
    (Job.create globals behaves job name).run h =
      (Job.createChildJob globals behaves job).run h := by
  simp only [Job.create, Job.createChildJob, EStateM.run_bind, hrun, ne_eq,
    hstatus, not_true_eq_false, if_false]

theorem createChildJob_of_error
    (hrun : (fxJobCreate globals behaves job.raw 0 0).run h = .error e h₁) :
    (Job.createChildJob globals behaves job).run h = .error e h₁ := by
  rw [Job.createChildJob, EStateM.run_bind, hrun]

theorem createChildJob_eq_ok_iff
    (hrun : (fxJobCreate globals behaves job.raw 0 0).run h = .ok reply h₁) :
    (Job.createChildJob globals behaves job).run h = .ok made h₂ ↔
      reply.out 0 = .ok made.raw ∧ h₁ = h₂ := by
  rw [Job.createChildJob, EStateM.run_bind, hrun]
  exact wrap_eq_ok_iff (f := fun value => (⟨⟨value⟩⟩ : Job))
    (g := fun made => made.raw) (fun _ => rfl) fun _ => rfl

theorem createChildProcess_eq_ok_iff
    (hrun : (fxProcessCreate globals behaves job.raw (.text name)
      (stringLength name) 0 0 1).run h = .ok reply h₁) :
    (Job.createChildProcess globals behaves job name).run h = .ok child h₂ ↔
      reply.out 0 = .ok child.raw ∧ h₁ = h₂ := by
  rw [Job.createChildProcess, EStateM.run_bind, hrun]
  exact wrap_eq_ok_iff (f := fun value => (⟨⟨value⟩⟩ : Process))
    (g := fun child => child.raw) (fun _ => rfl) fun _ => rfl

theorem createPair_of_failed
    (hrun : (fxChannelCreate globals behaves process.raw 0 1).run h =
      .ok reply h₁) (hstatus : reply.status ≠ Status.ok.number) :
    (ChannelPair.create globals behaves process).run h =
      .ok ⟨none, none⟩ h₁ := by
  simp only [ChannelPair.create, EStateM.run_bind, hrun, ne_eq, hstatus,
    not_false_eq_true, if_true, EStateM.run_pure]

/-- Whatever the kernel answers, `start` returns 0. -/
theorem start_of_ok
    (hrun : (fxProcessStart globals behaves process.raw entry arg1.raw).run h =
      .ok reply h₁) :
    (Process.start globals behaves process entry arg1).run h = .ok 0 h₁ := by
  simp only [Process.start, EStateM.run_bind, hrun, EStateM.run_pure]

end

/-! ## All wrappers -/

section

variable {globals : Entry → Bool} {behaves : Callee → SysCall → HostCode Reply}
  {h : Host} {job : Job} {process : Process} {name : String} {entry : ℕ}
  {arg1 : Handle}

/-- Two ways to create a job that agree leave the reference alone when the
kernel fails. -/
theorem failsCleanly_of_reports
    (hreports : ReportsFailures globals behaves h job process name entry arg1) :
    FailsCleanly globals behaves h job process name entry arg1 where
  jobs := by
    intro reply h₁ hrun
    by_cases hstatus : reply.status = Status.ok.number
    · exact .inl hstatus
    · have hchild := hreports.same_job
      rw [create_of_failed hrun hstatus] at hchild
      exact .inr ((createChildJob_eq_ok_iff hrun).mp hchild.symm).1
  processes := by
    intro reply h₁ hrun
    by_cases hstatus : reply.status = Status.ok.number
    · exact .inl hstatus
    · refine .inr fun value hvalue => ?_
      by_contra hne
      have hchild : (Job.createChildProcess globals behaves job name).run h =
          .ok ⟨⟨value⟩⟩ h₁ :=
        (createChildProcess_eq_ok_iff hrun).mpr ⟨hvalue, rfl⟩
      exact hstatus (hreports.createChildProcess reply h₁ _ h₁ hrun hchild
        (isValid_iff.mpr hne)).1
  starts := by
    intro reply h₁ hrun
    have hstart := hreports.start reply h₁ hrun
    rw [start_of_ok hrun] at hstart
    exact (EStateM.Result.ok.inj hstart).1.symm

theorem reports_of_failsCleanly
    (hclean : FailsCleanly globals behaves h job process name entry arg1) :
    ReportsFailures globals behaves h job process name entry arg1 := by
  have hsame : (Job.create globals behaves job name).run h =
      (Job.createChildJob globals behaves job).run h := by
    rcases hrun : (fxJobCreate globals behaves job.raw 0 0).run h with
      ⟨reply, h₁⟩ | ⟨e, h₁⟩
    · by_cases hstatus : reply.status = Status.ok.number
      · exact create_of_ok hrun hstatus
      · rw [create_of_failed hrun hstatus]
        have hout := (hclean.jobs reply h₁ hrun).resolve_left hstatus
        have hchild : (Job.createChildJob globals behaves job).run h =
            .ok ⟨⟨fxInvalidHandle⟩⟩ h₁ :=
          (createChildJob_eq_ok_iff hrun).mpr ⟨hout, rfl⟩
        exact hchild.symm
    · rw [create_of_error hrun, createChildJob_of_error hrun]
  have hchildJob : ∀ reply h₁ made h₂,
      (fxJobCreate globals behaves job.raw 0 0).run h = .ok reply h₁ →
      (Job.createChildJob globals behaves job).run h = .ok made h₂ →
      made.isValid = true → reply.Grants made.toHandle := by
    intro reply h₁ made h₂ hrun hmade hvalid
    have hout := ((createChildJob_eq_ok_iff hrun).mp hmade).1
    rcases hclean.jobs reply h₁ hrun with hstatus | hinvalid
    · exact ⟨hstatus, hout⟩
    · rw [hout] at hinvalid
      exact absurd (Except.ok.inj hinvalid) (isValid_iff.mp hvalid)
  constructor
  case create =>
    intro reply h₁ made h₂ hrun hmade
    rw [hsame] at hmade
    exact hchildJob reply h₁ made h₂ hrun hmade
  case createChildJob => exact hchildJob
  case createChildProcess =>
    intro reply h₁ child h₂ hrun hchild hvalid
    have hout := ((createChildProcess_eq_ok_iff hrun).mp hchild).1
    rcases hclean.processes reply h₁ hrun with hstatus | hinvalid
    · exact ⟨hstatus, hout⟩
    · exact absurd (hinvalid _ hout) (isValid_iff.mp hvalid)
  case createPair =>
    intro reply h₁ pair h₂ hrun hpair hmembers
    by_contra hstatus
    rw [createPair_of_failed hrun hstatus] at hpair
    obtain ⟨rfl, -⟩ := EStateM.Result.ok.inj hpair
    exact hmembers.elim (fun hne => hne rfl) fun hne => hne rfl
  case same_job => exact hsame
  case start =>
    intro reply h₁ hrun
    rw [start_of_ok hrun, hclean.starts reply h₁ hrun]

end

/-- Under every kernel and in every state, the wrappers report its failures
exactly if it fails without writing a handle and starts processes with
status 0. -/
theorem wrappers_report_failures_iff (globals : Entry → Bool)
    (behaves : Callee → SysCall → HostCode Reply) (h : Host) (job : Job)
    (process : Process) (name : String) (entry : ℕ) (arg1 : Handle) :
    ReportsFailures globals behaves h job process name entry arg1 ↔
      FailsCleanly globals behaves h job process name entry arg1 :=
  ⟨failsCleanly_of_reports, reports_of_failsCleanly⟩

/-- A kernel that has written the handle of the process when making the second
handle fails. -/
def failsAfterWriting : Callee → SysCall → HostCode Reply := fun _ _ =>
  pure ⟨Status.errBadState.number, fun ref => if ref = 0 then [.set 7] else []⟩

/-- The wrapper is valid, and the start of a process looks like status 0. -/
theorem not_reportsFailures_failsAfterWriting :
    (∃ h, (Job.createChildProcess (fun _ => true) failsAfterWriting ⟨⟨3⟩⟩
        "app").run Host.new = .ok ⟨⟨7⟩⟩ h) ∧
      (∃ h, (Process.start (fun _ => true) failsAfterWriting ⟨⟨7⟩⟩ 0
        ⟨0⟩).run Host.new = .ok 0 h) ∧
      ¬ ReportsFailures (fun _ => true) failsAfterWriting Host.new ⟨⟨3⟩⟩
        ⟨⟨7⟩⟩ "app" 0 ⟨0⟩ := by
  refine ⟨⟨_, rfl⟩, ⟨_, rfl⟩, fun hreports => ?_⟩
  have hgrants := hreports.createChildProcess
    ⟨Status.errBadState.number, fun ref => if ref = 0 then [.set 7] else []⟩
    _ _ _ rfl rfl rfl
  exact absurd hgrants.1 (by decide)

end Fiber.Sdk
