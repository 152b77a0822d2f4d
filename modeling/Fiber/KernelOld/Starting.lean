import Fiber.KernelOld.Chronicle

/-!
# Starting a process

`processStart` looks the handle up, and hands the object it finds to the
embedder as a process.  The table also holds the root realm, and the handles of
creations that have not returned: the callback may still be running, or it has
thrown.  A handle that is in no table makes the destructuring throw.
-/

namespace Fiber.KernelOld

open SdkTypes KernelOld.Kernel Support

/-! ## Reachable worlds -/

/-- The worlds in which the embedder may make its next call: at the start,
after code has run, and inside the callback of a creation. -/
inductive Occurs (R : Rounding) : World Journal → Prop
  | start : Occurs R World.start
  | run {w : World Journal} (hw : Occurs R w) (code : Code) :
      Occurs R (endState (code.run R) w)
  | entering {w : World Journal} {k : Kernel} {handle : RawHandle}
      {object : KernelObject} (hw : Occurs R w)
      (hissue : w.kernel.issue R = (k, some (handle, object))) :
      Occurs R (w.entering k object)

theorem Occurs.chronicle {R : Rounding} {w : World Journal}
    (hw : Occurs R w) : Chronicle w := by
  induction hw with
  | start => exact .start
  | run hw code ih => exact chronicle_of_run R code _ ih
  | entering hw hissue ih =>
      have hstep := issue_step R ih.consistent
      rw [hissue] at hstep
      obtain _ | ⟨-, -, hissued, hk⟩ := hstep
      exact ih.entering hk hissued

/-- A creation has returned `handle` with status OK, and it had handed
`object` to its callback. -/
def Granted (w : World Journal) (handle : RawHandle) (object : KernelObject) :
    Prop :=
  ∃ r ∈ w.rest.records, ∃ k, r.Returns (some handle) k ∧
    ∃ before after, .entered r.call before after object ∈ w.rest.records

/-- The callback of a call was entered with one object only. -/
theorem Chronicle.entered_inj {w : World Journal} (hw : Chronicle w)
    {call : ℕ} {before before' after after' : Kernel}
    {object object' : KernelObject}
    (h : .entered call before after object ∈ w.rest.records)
    (h' : .entered call before' after' object' ∈ w.rest.records) :
    object = object' := by
  have hsymm : Std.Symm fun r r' : Record =>
      ∀ call ∈ r.enteredCall, ∀ call' ∈ r'.enteredCall, call ≠ call' :=
    ⟨fun r r' hne call hcall call' hcall' =>
      (hne call' hcall' call hcall).symm⟩
  by_contra hne
  have hrecords : Record.entered call before after object ≠
      .entered call before' after' object' :=
    fun heq => hne (Record.entered.inj heq).2.2.2
  have hapart := (List.pairwise_filterMap.mp hw.entered_once).forall h h'
    hrecords
  exact hapart call rfl call rfl rfl

/-- What was granted is still in the tables. -/
theorem Chronicle.names_of_granted {w : World Journal} (hw : Chronicle w)
    {handle : RawHandle} {object : KernelObject}
    (h : Granted w handle object) : Names w.kernel handle object := by
  obtain ⟨r, hr, k, hreturns, before, after, hentered⟩ := h
  obtain ⟨handle', hhandle, before', after', object', hentered', -, hnames⟩ :=
    hw.returns hr hreturns
  obtain rfl := Option.some.inj hhandle
  rw [← hw.entered_inj hentered hentered'] at hnames
  have hk : k ∈ w.past := by
    refine List.mem_cons_of_mem _ (List.mem_flatMap.mpr ⟨r, hr, ?_⟩)
    rcases r with ⟨⟩ | ⟨call, e | result, after⟩
    · exact hreturns.elim
    · exact hreturns.elim
    · exact List.mem_singleton.mpr hreturns.2.2.symm
  have hordered := (List.pairwise_append.mp hw.timeline.ordered).2.2
  exact (hordered k hk w.kernel (List.mem_singleton_self _)).names hnames

/-! ## The callback of one call -/

variable {τ : Type}

/-- The callback, which now also notes the objects it is invoked with. -/
def noted (callback : Option KernelObject → KernelCode τ Unit)
    (object : Option KernelObject) :
    KernelCode (List (Option KernelObject) × τ) Unit := fun w =>
  match callback object ⟨w.kernel, w.rest.2⟩ with
  | .ok () w' => .ok () ⟨w'.kernel, w.rest.1 ++ [object], w'.rest⟩
  | .error e w' => .error e ⟨w'.kernel, w.rest.1 ++ [object], w'.rest⟩

/-- A call of `processStart` with nothing noted yet. -/
def startRun (callback : Option KernelObject → KernelCode τ Unit)
    (process bootChannel : RawHandle) (k : Kernel) (rest : τ) :
    EStateM.Result JsError (World (List (Option KernelObject) × τ)) Result :=
  (processStart (noted callback) process bootChannel).run ⟨k, [], rest⟩

/-- A granted handle is started: the callback is invoked once, with the object
of its creation.  For another handle the call answers with an error, without an
invocation and with the tables as they were. -/
structure StartsCreated (w : World Journal)
    (callback : Option KernelObject → KernelCode τ Unit)
    (process bootChannel : RawHandle) (rest : τ) : Prop where
  granted : ∀ object, Granted w process object → ∃ w',
    startRun callback process bootChannel w.kernel rest =
        .ok { status := .ok } w' ∧
      w'.rest.1 = [some object]
  others : (¬ ∃ object, Granted w process object) → ∃ result w',
    startRun callback process bootChannel w.kernel rest = .ok result w' ∧
      result.status ≠ .ok ∧ w'.rest.1 = [] ∧
      w'.kernel.handles = w.kernel.handles ∧
      w'.kernel.kobjects = w.kernel.kobjects

section

variable {w : World Journal} {w' : World τ} {k : Kernel} {e : JsError}
  {callback : Option KernelObject → KernelCode τ Unit}
  {process bootChannel handle : RawHandle} {object : KernelObject} {rest : τ}

theorem startRun_of_none (h : k.handles handle = none) :
    startRun callback handle bootChannel k rest =
      .error .typeError ⟨k, [], rest⟩ :=
  processStart_of_none h

theorem startRun_of_ok {entry : IKernelHandle}
    (hentry : k.handles handle = some entry)
    (hrun : (callback (k.kobjects entry.koid)).run ⟨k, rest⟩ = .ok () w') :
    startRun callback handle bootChannel k rest =
      .ok { status := .ok }
        ⟨w'.kernel, [k.kobjects entry.koid], w'.rest⟩ := by
  rw [EStateM.run] at hrun
  rw [startRun, processStart_of_some hentry, EStateM.run_bind]
  simp only [EStateM.run, noted, hrun]
  rfl

theorem startRun_of_error {entry : IKernelHandle}
    (hentry : k.handles handle = some entry)
    (hrun : (callback (k.kobjects entry.koid)).run ⟨k, rest⟩ = .error e w') :
    startRun callback handle bootChannel k rest =
      .error e ⟨w'.kernel, [k.kobjects entry.koid], w'.rest⟩ := by
  rw [EStateM.run] at hrun
  rw [startRun, processStart_of_some hentry, EStateM.run_bind]
  simp only [EStateM.run, noted, hrun]
  rfl

/-- No call answers with an error status. -/
theorem startRun_status {result : Result}
    {w'' : World (List (Option KernelObject) × τ)}
    (h : startRun callback handle bootChannel k rest = .ok result w'') :
    result.status = .ok := by
  rcases hentry : k.handles handle with _ | entry
  · rw [startRun_of_none hentry] at h
    nomatch h
  · rcases hrun : (callback (k.kobjects entry.koid)).run ⟨k, rest⟩ with
      ⟨⟩ | ⟨e⟩
    · rw [startRun_of_ok hentry hrun] at h
      obtain ⟨rfl, -⟩ := EStateM.Result.ok.inj h
      rfl
    · rw [startRun_of_error hentry hrun] at h
      nomatch h

end

/-- Wherever it is called, `processStart` starts created processes only,
exactly if the handle was granted and the callback returns. -/
theorem start_only_created_iff (R : Rounding) {w : World Journal}
    (hw : Occurs R w) (callback : Option KernelObject → KernelCode τ Unit)
    (process bootChannel : RawHandle) (rest : τ) :
    StartsCreated w callback process bootChannel rest ↔
      ∃ object, Granted w process object ∧
        ∃ w', (callback (some object)).run ⟨w.kernel, rest⟩ = .ok () w' := by
  constructor
  · intro h
    by_cases hgranted : ∃ object, Granted w process object
    · obtain ⟨object, hobject⟩ := hgranted
      obtain ⟨entry, hentry, hkobject⟩ := hw.chronicle.names_of_granted hobject
      refine ⟨object, hobject, ?_⟩
      obtain ⟨w', hrun, -⟩ := h.granted object hobject
      rcases hcall : (callback (some object)).run ⟨w.kernel, rest⟩ with
        ⟨⟨⟩, w''⟩ | ⟨e, w''⟩
      · exact ⟨w'', rfl⟩
      · rw [← hkobject] at hcall
        rw [startRun_of_error hentry hcall] at hrun
        nomatch hrun
    · obtain ⟨result, w', hrun, hstatus, -⟩ := h.others hgranted
      exact absurd (startRun_status hrun) hstatus
  · rintro ⟨object, hobject, w', hcall⟩
    constructor
    · intro object' hobject'
      have hnames := hw.chronicle.names_of_granted hobject
      obtain ⟨entry, hentry, hkobject⟩ := hnames
      obtain ⟨entry', hentry', hkobject'⟩ :=
        hw.chronicle.names_of_granted hobject'
      obtain rfl := Option.some.inj (hentry.symm.trans hentry')
      obtain rfl := Option.some.inj (hkobject.symm.trans hkobject')
      rw [← hkobject] at hcall
      exact ⟨_, startRun_of_ok hentry hcall, by rw [hkobject]⟩
    · intro hother
      exact absurd ⟨object, hobject⟩ hother

/-- The world after a creation whose callback does nothing. -/
def World.created : World Journal :=
  endState ((Code.processCreate rootRealmHandle "init" 0 (fun _ => .ret)
    fun _ => .ret).run .double) World.start

theorem granted_created : Granted World.created 2 ⟨1, .process, 2⟩ := by
  refine ⟨.ended 0 (.ok { status := .ok, handle := some 2 })
    World.created.kernel, ?_, World.created.kernel, ⟨rfl, rfl, rfl⟩,
    Kernel.new, World.created.kernel, ?_⟩
  · exact List.mem_cons_of_mem _ (List.mem_singleton_self _)
  · exact List.mem_cons_self

theorem start_only_created_iff_created :
    Occurs .double World.created ∧
      (StartsCreated World.created
          (fun _ => (pure () : KernelCode Unit Unit)) 2 0 () ↔
        ∃ object, Granted World.created 2 object ∧
          ∃ w', (pure () : KernelCode Unit Unit).run
            ⟨World.created.kernel, ()⟩ = .ok () w') ∧
      ∃ object, Granted World.created 2 object :=
  have hw : Occurs .double World.created := .run .start _
  ⟨hw, start_only_created_iff .double hw (fun _ => pure ()) 2 0 (),
    _, granted_created⟩

/-- The handle of the root realm is started as well, with the realm. -/
theorem not_startsCreated_root :
    Occurs .double World.start ∧
      (∃ w', startRun (fun _ => (pure () : KernelCode Unit Unit))
          rootRealmHandle 0 World.start.kernel () =
            .ok { status := .ok } w' ∧
          w'.rest.1 = [some ⟨0, .realm, rootRealmKoid⟩]) ∧
      ¬ StartsCreated World.start
        (fun _ => (pure () : KernelCode Unit Unit)) rootRealmHandle 0 () := by
  refine ⟨.start, ⟨_, startRun_of_ok rfl rfl, rfl⟩, ?_⟩
  intro h
  obtain ⟨result, w', hrun, hstatus, -⟩ := h.others (by
    rintro ⟨object, r, hr, -⟩
    exact absurd hr List.not_mem_nil)
  exact absurd (startRun_status hrun) hstatus

end Fiber.KernelOld
