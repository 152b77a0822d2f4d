import Fiber.Support.Refinement
import Fiber.Sys.Dispatch

/-!
# Who receives a call

The module keeps the system that was installed last in a variable, and the
entry points read the variable.  What has happened so far decides the same: no
code can tell the module from one that has only the history, however the
functions of the host call entry points and install systems themselves.
-/

namespace Fiber.Sys

open Support

/-- Whose function a call is for, by the history; `none` if the call fails. -/
def receiver (self : Entry → Bool) (history : List Event) (made : SysCall) :
    Option Callee :=
  if self made.entry then some .global
  else if made.entry = .jobCreate then none
  else (lastInstalled history).map .system

/-- Each call in the history went to the function that it was for. -/
def WellReceived (self : Entry → Bool) (history : List Event) : Prop :=
  ∀ before callee made after,
    history = before ++ .called callee made :: after →
      receiver self before made = some callee

/-- The code over a module that has only the history. -/
def Code.decided {ρ : Type} (self : Entry → Bool) :
    Code ρ → EStateM JsError (List Event) ρ
  | .ret result => pure result
  | .fail e => throw e
  | .init system next => do
      modify fun history => history ++ [.installed system]
      next.decided self
  | .call made behaves next => do
      let outcome ← captured do
        let history ← get
        match receiver self history made with
        | none => throw (.error "system is not initialized")
        | some callee => do
            set (history ++ [.called callee made])
            (behaves callee made).decided self
      (next outcome).decided self

/-! ## One call -/

section

variable {ρ : Type} {self : Entry → Bool}
  {behaves : Callee → SysCall → HostCode ρ} {made : SysCall} {h : Host}
  {callee : Callee}

/-- A call that is for a function of the host is a call of this function. -/
theorem fx_of_receiver (hfor : receiver self h.log made = some callee) :
    (fx self behaves made).run h = (invoke behaves callee made).run h := by
  rcases hself : self made.entry with _ | _
  · rw [receiver, if_neg (ne_true_of_eq_false hself)] at hfor
    by_cases hentry : made.entry = .jobCreate
    · rw [if_pos hentry] at hfor
      nomatch hfor
    · rw [if_neg hentry] at hfor
      obtain ⟨system, hlast, rfl⟩ := Option.map_eq_some_iff.mp hfor
      rw [fx_of_entry_ne hentry]
      exact dispatch_of_system hself (h.current.trans hlast)
  · rw [receiver, if_pos hself] at hfor
    obtain rfl := Option.some.inj hfor
    by_cases hentry : made.entry = .jobCreate
    · rw [fx_job_of_global hentry (hentry ▸ hself)]
    · rw [fx_of_entry_ne hentry, dispatch_of_global hself]

theorem fx_of_no_receiver (hfor : receiver self h.log made = none) :
    (fx self behaves made).run h =
      .error (.error "system is not initialized") h := by
  rcases hself : self made.entry with _ | _
  · rw [receiver, if_neg (ne_true_of_eq_false hself)] at hfor
    by_cases hentry : made.entry = .jobCreate
    · exact fx_job_of_not_global hentry (hentry ▸ hself) h
    · rw [if_neg hentry] at hfor
      rw [fx_of_entry_ne hentry]
      exact dispatch_of_neither hself
        (h.current.trans (Option.map_eq_none_iff.mp hfor))
  · rw [receiver, if_pos hself] at hfor
    nomatch hfor

/-- Systems are never asked for jobs. -/
theorem entry_ne_of_receiver {history : List Event} {system : System}
    (hfor : receiver self history made = some (.system system)) :
    made.entry ≠ .jobCreate := by
  intro hentry
  rw [receiver, if_pos hentry] at hfor
  split at hfor <;> nomatch hfor

end

/-! ## The history -/

namespace WellReceived

variable {self : Entry → Bool} {history : List Event}

theorem nil : WellReceived self [] := by
  intro before callee made after heq
  exact absurd heq.symm (List.append_ne_nil_of_right_ne_nil _ (by simp))

/-- The last event is the only new one. -/
theorem concat (h : WellReceived self history) {event : Event}
    (hlast : ∀ callee made, event = .called callee made →
      receiver self history made = some callee) :
    WellReceived self (history ++ [event]) := by
  intro before callee made after heq
  rcases List.eq_nil_or_concat after with rfl | ⟨after, last, rfl⟩
  · obtain ⟨rfl, hevent⟩ := List.append_inj' heq rfl
    exact hlast callee made (List.cons.inj hevent).1
  · rw [List.concat_eq_append, ← List.cons_append, ← List.append_assoc] at heq
    exact h before callee made after (List.append_inj' heq rfl).1

end WellReceived

/-- The host and the history say the same, and all calls so far went where they
had to. -/
structure Told (globals : Entry → Bool) (h : Host) (history : List Event) :
    Prop where
  log : h.log = history
  received : WellReceived globals history

namespace Told

variable {self : Entry → Bool} {h : Host} {history : List Event}

theorem install (hh : Told self h history) (system : System) :
    Told self (h.install system) (history ++ [.installed system]) where
  log := congrArg (· ++ [Event.installed system]) hh.log
  received := hh.received.concat nofun

theorem call (hh : Told self h history) {callee : Callee} {made : SysCall}
    (hfor : receiver self history made = some callee) :
    Told self (h.call callee made) (history ++ [.called callee made]) where
  log := congrArg (· ++ [Event.called callee made]) hh.log
  received := by
    refine hh.received.concat fun callee' made' heq => ?_
    obtain ⟨rfl, rfl⟩ := Event.called.inj heq
    exact hfor

end Told

/-! ## No code can tell them apart -/

theorem matches_decided {ρ : Type} (self : Entry → Bool) (code : Code ρ)
    (h : Host) (history : List Event) (hh : Told self h history) :
    Matches (Told self) (code.run self) h (code.decided self) history := by
  induction code generalizing h history with
  | ret result => exact .pure result hh
  | fail e => exact .throw e hh
  | init system next hnext =>
      exact .step_code rfl (.step_model (EStateM.run_modify _ history)
        (hnext _ _ (hh.install system)))
  | call made behaves next hbehaves hnext =>
      rw [Code.run, Code.decided]
      refine .bind (.captured (.step_model (EStateM.run_get history) ?_)) hnext
      rcases hfor : receiver self history made with _ | callee
      · rw [← hh.log] at hfor
        rw [Matches, fx_of_no_receiver hfor]
        exact .error _ hh
      · have hcall := hh.call hfor
        rw [← hh.log] at hfor
        refine .congr (fx_of_receiver hfor) rfl ?_
        exact .step_code (EStateM.run_modify _ h) (.step_model
          (EStateM.run_set _ history) (hbehaves callee made _ _ hcall))

/-- In every run, with calls and installations nested in any way, code ends as
over the history alone; each call went to the function that it was for at the
time, and no system was ever asked for a job. -/
theorem host_follows_history {ρ : Type} (self : Entry → Bool)
    (code : Code ρ) :
    let h := endState (code.run self) Host.new
    Matches (fun h history => h.log = history) (code.run self) Host.new
        (code.decided self) [] ∧
      WellReceived self h.log ∧
      ∀ system made, .called (.system system) made ∈ h.log →
        made.entry ≠ .jobCreate := by
  intro h
  have hcode : Matches (Told self) (code.run self) Host.new
      (code.decided self) [] := matches_decided self code _ _ ⟨rfl, .nil⟩
  obtain ⟨hlog, hreceived⟩ := hcode.endState
  rw [← hlog] at hreceived
  refine ⟨hcode.mono fun _ _ htold => htold.log, hreceived, ?_⟩
  intro system made hmem
  obtain ⟨before, after, heq⟩ := List.append_of_mem hmem
  exact entry_ne_of_receiver (hreceived before _ made after heq)

end Fiber.Sys
