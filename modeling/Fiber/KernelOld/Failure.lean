import Fiber.KernelOld.Chronicle

/-!
# A failed process creation

`processCreate` catches the failures of its id generators, and then the tables
are as they were.  It does not catch what its callback throws; by then both
tables have been written, and nobody has received the handle.
-/

namespace Fiber.KernelOld

open SdkTypes KernelOld.Kernel Support

variable {τ : Type}

/-- A callback that leaves the kernel alone. -/
def outside (code : EStateM JsError τ Unit) : KernelCode τ Unit := fun w =>
  match code w.rest with
  | .ok () rest => .ok () { w with rest := rest }
  | .error e rest => .error e { w with rest := rest }

/-- The call does not return status OK. -/
def Failed : EStateM.Result JsError (World τ) Result → Prop
  | .ok result _ => result.status ≠ .ok
  | .error _ _ => True

/-- If the call fails, both tables are what they were before it. -/
def FailureKeepsTables (R : Rounding)
    (onProcessCreate : KernelObject → KernelCode τ Unit)
    (parentRealm : RawHandle) (name : String) (programVmo : RawHandle)
    (w : World τ) : Prop :=
  let call := processCreate R onProcessCreate parentRealm name programVmo
  Failed (call.run w) →
    (endState call w).kernel.handles = w.kernel.handles ∧
      (endState call w).kernel.kobjects = w.kernel.kobjects

theorem Reachable.consistent {R : Rounding} {k : Kernel} (hk : Reachable R k) :
    Consistent k := by
  obtain ⟨code, hk⟩ := hk
  exact (chronicle_of_run R code World.start .start).timeline.inv k hk

theorem reachable_new (R : Rounding) : Reachable R Kernel.new :=
  ⟨.ret, List.mem_cons_self⟩

section

variable {R : Rounding} {w : World τ} {k : Kernel} {handle : RawHandle}
  {object : KernelObject} {onProcessCreate : KernelObject → KernelCode τ Unit}
  {callback : KernelObject → EStateM JsError τ Unit}
  {parentRealm programVmo : RawHandle} {name : String} {rest : τ} {e : JsError}

theorem outside_of_ok (h : (callback object).run w.rest = .ok () rest) :
    (outside (callback object)).run { w with kernel := k } =
      .ok () ⟨k, rest⟩ := by
  rw [EStateM.run] at h ⊢
  simp only [outside, h]

theorem outside_of_error
    (h : (callback object).run w.rest = .error e rest) :
    (outside (callback object)).run { w with kernel := k } =
      .error e ⟨k, rest⟩ := by
  rw [EStateM.run] at h ⊢
  simp only [outside, h]

theorem keepsTables_of_exhausted (hissue : w.kernel.issue R = (k, none))
    (hhandles : k.handles = w.kernel.handles)
    (hkobjects : k.kobjects = w.kernel.kobjects) :
    FailureKeepsTables R onProcessCreate parentRealm name programVmo w := by
  intro _
  rw [endState_of_ok (processCreate_of_exhausted hissue)]
  exact ⟨hhandles, hkobjects⟩

theorem keepsTables_of_returned
    (hissue : w.kernel.issue R = (k, some (handle, object)))
    (hrun : (callback object).run w.rest = .ok () rest) :
    FailureKeepsTables R (fun process => outside (callback process))
      parentRealm name programVmo w := by
  intro hfailed
  have hcall : (processCreate R (fun process => outside (callback process))
      parentRealm name programVmo).run w =
      .ok { status := .ok, handle := some handle } ⟨k, rest⟩ :=
    processCreate_of_returned hissue (outside_of_ok hrun)
  rw [hcall] at hfailed
  exact absurd rfl hfailed

/-- The handle of a call whose callback throws stays in the table. -/
theorem not_keepsTables_of_thrown
    (hissue : w.kernel.issue R = (k, some (handle, object)))
    (hissued : Issued w.kernel k handle object)
    (hrun : (callback object).run w.rest = .error e rest) :
    ¬ FailureKeepsTables R (fun process => outside (callback process))
      parentRealm name programVmo w := by
  intro hkeeps
  have hcall : (processCreate R (fun process => outside (callback process))
      parentRealm name programVmo).run w = .error e ⟨k, rest⟩ :=
    processCreate_of_thrown hissue (outside_of_error hrun)
  have hhandles := (hkeeps (by rw [hcall]; trivial)).1
  rw [endState_of_error hcall] at hhandles
  obtain ⟨entry, hentry, -⟩ := hissued.names
  have hfree : k.handles handle = none := by
    rw [hhandles]
    exact hissued.handle_free
  rw [hfree] at hentry
  nomatch hentry

end

/-- In every reachable state, a failing call keeps the tables exactly if it
fails for want of an id, or its callback would have returned. -/
theorem failed_create_keeps_tables_iff (R : Rounding) {k : Kernel}
    (hk : Reachable R k) (callback : KernelObject → EStateM JsError τ Unit)
    (parentRealm : RawHandle) (name : String) (programVmo : RawHandle)
    (rest : τ) :
    FailureKeepsTables R (fun process => outside (callback process))
        parentRealm name programVmo ⟨k, rest⟩ ↔
      k.handleGen.Exhausted ∨ k.koidGen.Exhausted ∨
        ∃ rest', (callback k.nextProcess).run rest = .ok () rest' := by
  have hstep := issue_step R hk.consistent
  rcases hissue : k.issue R with ⟨k', _ | ⟨handle, object⟩⟩
  · rw [hissue] at hstep
    obtain ⟨hgen, hhandles, hkobjects, -⟩ | _ := hstep
    refine iff_of_true (keepsTables_of_exhausted hissue hhandles hkobjects) ?_
    rcases hgen with hgen | hgen
    · exact .inl hgen
    · exact .inr (.inl hgen)
  · rw [hissue] at hstep
    obtain _ | ⟨hhandleGen, hkoidGen, hissued, -⟩ := hstep
    rcases hrun : (callback k.nextProcess).run rest with ⟨⟩ | ⟨e⟩
    · exact iff_of_true (keepsTables_of_returned hissue hrun)
        (.inr (.inr ⟨_, rfl⟩))
    · refine iff_of_false (not_keepsTables_of_thrown hissue hissued hrun) ?_
      rintro (hgen | hgen | ⟨rest', hreturned⟩)
      · exact hhandleGen hgen
      · exact hkoidGen hgen
      · nomatch hreturned

/-- After a creation in whose callback another one has failed, a creation that
returns keeps the law, and one whose callback throws breaks it. -/
theorem failed_create_keeps_tables_iff_nested :
    let code : Code := .processCreate 1 "test0" 0
      (fun _ => .processCreate 1 "test1" 0
        (fun _ => .fail (.error "boom")) fun _ => .ret) fun _ => .ret
    let k := (endState (code.run .double) World.start).kernel
    Reachable .double k ∧
      FailureKeepsTables .double (fun _ => outside (pure ())) 1 "test2" 0
        ⟨k, ()⟩ ∧
      ¬ FailureKeepsTables .double (fun _ => outside (throw (.error "boom")))
        1 "test2" 0 ⟨k, ()⟩ := by
  intro code k
  have hk : Reachable .double k :=
    ⟨code, List.mem_append_right _ (List.mem_singleton_self _)⟩
  have hkeeps := failed_create_keeps_tables_iff .double hk
    (fun _ => pure ()) 1 "test2" 0 ()
  have hthrows := failed_create_keeps_tables_iff .double hk
    (fun _ => throw (.error "boom")) 1 "test2" 0 ()
  refine ⟨hk, hkeeps.mpr (.inr (.inr ⟨(), rfl⟩)), fun h => ?_⟩
  obtain hgen | hgen | ⟨_, hreturned⟩ := hthrows.mp h
  · exact absurd hgen (by decide +kernel)
  · exact absurd hgen (by decide +kernel)
  · nomatch hreturned

/-- A callback that throws on a new kernel leaves handle 2 and koid 2. -/
theorem not_failureKeepsTables_throw :
    Reachable .double Kernel.new ∧
      ¬ FailureKeepsTables .double
        (fun process => outside ((fun _ => throw (.error "boom")) process))
        1 "test" 0 ⟨Kernel.new, ()⟩ := by
  refine ⟨reachable_new .double, ?_⟩
  have hstep := issue_step .double consistent_new
  rcases hissue : Kernel.new.issue .double with ⟨k, _ | ⟨handle, object⟩⟩
  · rw [hissue] at hstep
    obtain ⟨hgen, -, -, -⟩ | _ := hstep
    exact absurd hgen (by decide)
  · rw [hissue] at hstep
    obtain _ | ⟨-, -, hissued, -⟩ := hstep
    exact not_keepsTables_of_thrown (w := ⟨Kernel.new, ()⟩) hissue hissued
      (by rfl)

end Fiber.KernelOld
