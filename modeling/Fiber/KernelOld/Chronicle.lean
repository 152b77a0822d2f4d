import Fiber.KernelOld.Host
import Fiber.KernelOld.Tables
import Fiber.Support.Timeline
import Mathlib.Data.List.Nodup
import Mathlib.Data.List.Pairwise

/-!
# The tables along a run

The tables only grow, also across the callbacks, which may draw further ids
before the call that entered them ends.  A call that ends is older than the
calls inside its callback and younger than the ones before it, so the journal
names each call once, and the handle it returns is the one issued for it.
-/

namespace Fiber.KernelOld

open SdkTypes Support

/-! ## Journals -/

/-- The call that made the record entered its callback with `object`, and had
written `handle` for it. -/
def Record.Issues (handle : RawHandle) (object : KernelObject) : Record → Prop
  | .entered _ before after process =>
      process = object ∧ Issued before after handle object
  | .ended _ _ _ => False

/-- `call` ended with status OK and returned `handle`, in state `k`. -/
def Record.Returns (handle : Option RawHandle) (k : Kernel) : Record → Prop
  | .entered _ _ _ _ => False
  | .ended _ (.error _) _ => False
  | .ended _ (.ok result) after =>
      result.status = .ok ∧ result.handle = handle ∧ after = k

/-- What a journal says about its kernel. -/
structure Chronicle (w : World Journal) : Prop where
  timeline : Timeline Consistent Extends w.moments
  call_lt : ∀ r ∈ w.rest.records, r.call < w.rest.calls
  entered_once : (w.rest.records.filterMap Record.enteredCall).Nodup
  ended_once : (w.rest.records.filterMap Record.endedCall).Nodup
  issues : ∀ {call before after process},
    .entered call before after process ∈ w.rest.records →
    ∃ handle, Issued before after handle process
  returns : ∀ {r handle k}, r ∈ w.rest.records → r.Returns handle k →
    ∃ handle', handle = some handle' ∧
      ∃ before after process,
        .entered r.call before after process ∈ w.rest.records ∧
        Issued before after handle' process ∧ Names k handle' process

/-- Between the two worlds the tables grow, and later calls add records. -/
structure Grows (w w' : World Journal) : Prop where
  kernel : Extends w.kernel w'.kernel
  calls : w.rest.calls ≤ w'.rest.calls
  records : ∃ later, w'.rest.records = w.rest.records ++ later ∧
    ∀ r ∈ later, w.rest.calls ≤ r.call

theorem Grows.refl (w : World Journal) : Grows w w :=
  ⟨.refl w.kernel, Nat.le_refl _, [], (List.append_nil _).symm,
    fun _ hr => absurd hr List.not_mem_nil⟩

theorem Grows.trans {w w' w'' : World Journal} (h : Grows w w')
    (h' : Grows w' w'') : Grows w w'' := by
  obtain ⟨later, hrecords, hlater⟩ := h.records
  obtain ⟨later', hrecords', hlater'⟩ := h'.records
  refine ⟨h.kernel.trans h'.kernel, Nat.le_trans h.calls h'.calls,
    later ++ later', ?_, ?_⟩
  · rw [hrecords', hrecords, List.append_assoc]
  · intro r hr
    rcases List.mem_append.mp hr with hr | hr
    · exact hlater r hr
    · exact Nat.le_trans h.calls (hlater' r hr)

theorem Record.call_of_entered {r : Record} {call : ℕ}
    (h : r.enteredCall = some call) : r.call = call := by
  cases r with
  | entered => exact Option.some.inj h
  | ended => nomatch h

theorem Record.call_of_ended {r : Record} {call : ℕ}
    (h : r.endedCall = some call) : r.call = call := by
  cases r with
  | entered => nomatch h
  | ended => exact Option.some.inj h

/-- One more record with a number of its own. -/
theorem nodup_filterMap_append {f : Record → Option ℕ} {records : List Record}
    {r : Record} {call : ℕ} (h : (records.filterMap f).Nodup)
    (hr : f r = some call) (hfresh : ∀ r' ∈ records, f r' ≠ some call) :
    ((records ++ [r]).filterMap f).Nodup := by
  rw [List.filterMap_append, List.filterMap_cons_some hr]
  refine List.nodup_append.mpr ⟨h, List.nodup_singleton call, ?_⟩
  rintro a ha b hb rfl
  obtain ⟨r', hr', hcall⟩ := List.mem_filterMap.mp ha
  rw [List.mem_singleton.mp hb] at hcall
  exact hfresh r' hr' hcall

theorem World.past_record (w : World Journal) (r : Record) :
    (w.record r).past = w.past ++ r.kernels := by
  simp [past, record, List.flatMap_append]

namespace Chronicle

variable {R : Rounding} {w w' : World Journal} {k : Kernel}
  {handle : RawHandle} {object : KernelObject}
  {outcome : Except JsError Result}

theorem consistent (hw : Chronicle w) : Consistent w.kernel :=
  hw.timeline.inv w.kernel (by simp [World.moments])

theorem start : Chronicle World.start where
  timeline := .pair consistent_new consistent_new (.refl _)
  call_lt := fun _ hr => absurd hr List.not_mem_nil
  entered_once := List.nodup_nil
  ended_once := List.nodup_nil
  issues := fun hr => absurd hr List.not_mem_nil
  returns := fun hr => absurd hr List.not_mem_nil

/-- What a record returns stays tied to its callback when the journal grows. -/
theorem returns_append (hw : Chronicle w) {r : Record}
    {returned : Option RawHandle} (hr : r ∈ w.rest.records)
    (hreturns : r.Returns returned k) (later : List Record) :
    ∃ handle, returned = some handle ∧ ∃ before after process,
      .entered r.call before after process ∈ w.rest.records ++ later ∧
        Issued before after handle process ∧ Names k handle process := by
  obtain ⟨handle, hreturned, before, after, process, hentered, hrest⟩ :=
    hw.returns hr hreturns
  exact ⟨handle, hreturned, before, after, process,
    List.mem_append_left later hentered, hrest⟩

/-- A call begins and only moves the kernel on. -/
theorem calling (hw : Chronicle w) (hk : Consistent k)
    (hext : Extends w.kernel k) :
    Chronicle { w.calling with kernel := k } where
  timeline := by
    refine (hw.timeline.push (fun _ _ _ => .trans) hk hext).sublist ?_
    exact List.Sublist.append_left (List.sublist_cons_self ..) w.past
  call_lt := fun r hr => Nat.lt_succ_of_lt (hw.call_lt r hr)
  entered_once := hw.entered_once
  ended_once := hw.ended_once
  issues := hw.issues
  returns := hw.returns

/-- A call writes the tables and enters its callback. -/
theorem entering (hw : Chronicle w) (hk : Consistent k)
    (hissued : Issued w.kernel k handle object) :
    Chronicle (w.entering k object) where
  timeline := by
    have hpush := hw.timeline.push (fun _ _ _ => .trans) hk hissued.extended
    rw [List.append_cons] at hpush
    have hpush' := hpush.push (fun _ _ _ => .trans) hk (.refl k)
    have hmoments : (w.entering k object).moments =
        w.past ++ [w.kernel] ++ [k, k] := by
      rw [World.moments, World.entering, World.past_record]
      simp [Record.kernels, World.past, World.calling, World.record]
    rwa [hmoments]
  call_lt := by
    intro r hr
    rcases List.mem_append.mp hr with hr | hr
    · exact Nat.lt_succ_of_lt (hw.call_lt r hr)
    · rw [List.mem_singleton.mp hr]
      exact Nat.lt_succ_self _
  entered_once := by
    refine nodup_filterMap_append hw.entered_once rfl ?_
    intro r hr hcall
    exact absurd (Record.call_of_entered hcall) (Nat.ne_of_lt (hw.call_lt r hr))
  ended_once := by
    have hsame : (w.entering k object).rest.records.filterMap
        Record.endedCall = w.rest.records.filterMap Record.endedCall := by
      simp [World.entering, World.record, World.calling, Record.endedCall]
    rw [hsame]
    exact hw.ended_once
  issues := by
    intro call before after process hr
    rcases List.mem_append.mp hr with hr | hr
    · exact hw.issues hr
    · obtain ⟨rfl, rfl, rfl, rfl⟩ :=
        Record.entered.inj (List.mem_singleton.mp hr)
      exact ⟨handle, hissued⟩
  returns := by
    intro r handle' k' hr hreturns
    rcases List.mem_append.mp hr with hr | hr
    · exact hw.returns_append hr hreturns _
    · rw [List.mem_singleton.mp hr] at hreturns
      exact hreturns.elim

/-- A call ends that has not ended before. -/
theorem ending (hw' : Chronicle w') (hlt : w.rest.calls < w'.rest.calls)
    (hfresh : ∀ r ∈ w'.rest.records, r.endedCall ≠ some w.rest.calls)
    (hreturns : ∀ {result}, outcome = .ok result → result.status = .ok →
      ∃ handle, result.handle = some handle ∧
        ∃ before after process,
          .entered w.rest.calls before after process ∈ w'.rest.records ∧
          Issued before after handle process ∧
          Names w'.kernel handle process) :
    Chronicle (World.ending w' w outcome) where
  timeline := by
    have hpush :=
      hw'.timeline.push (fun _ _ _ => .trans) hw'.consistent (.refl _)
    have hmoments : (World.ending w' w outcome).moments =
        w'.past ++ [w'.kernel, w'.kernel] := by
      rw [World.moments, World.ending, World.past_record]
      simp [Record.kernels, World.record]
    rwa [hmoments]
  call_lt := by
    intro r hr
    rcases List.mem_append.mp hr with hr | hr
    · exact hw'.call_lt r hr
    · rw [List.mem_singleton.mp hr]
      exact hlt
  entered_once := by
    have hsame : (World.ending w' w outcome).rest.records.filterMap
        Record.enteredCall = w'.rest.records.filterMap Record.enteredCall := by
      simp [World.ending, World.record, Record.enteredCall]
    rw [hsame]
    exact hw'.entered_once
  ended_once := nodup_filterMap_append hw'.ended_once rfl hfresh
  issues := by
    intro call before after process hr
    rcases List.mem_append.mp hr with hr | hr
    · exact hw'.issues hr
    · nomatch List.mem_singleton.mp hr
  returns := by
    intro r handle' k' hr hr'
    rcases List.mem_append.mp hr with hr | hr
    · exact hw'.returns_append hr hr' _
    · obtain rfl := List.mem_singleton.mp hr
      rcases outcome with e | result
      · exact hr'.elim
      · obtain ⟨hstatus, rfl, rfl⟩ := hr'
        obtain ⟨handle'', hhandle, before, after, process, hentered, hrest⟩ :=
          hreturns rfl hstatus
        exact ⟨handle'', hhandle, before, after, process,
          List.mem_append_left _ hentered, hrest⟩

theorem of_exhausted (hw : Chronicle w) (hk : Consistent k)
    (hext : Extends w.kernel k)
    (houtcome : ∀ {result}, outcome = .ok result → result.status ≠ .ok) :
    Chronicle (World.ending { w.calling with kernel := k } w outcome) ∧
      Grows w (World.ending { w.calling with kernel := k } w outcome) := by
  constructor
  · refine (hw.calling hk hext).ending (Nat.lt_succ_self _) ?_ ?_
    · intro r hr hcall
      exact absurd (Record.call_of_ended hcall)
        (Nat.ne_of_lt (hw.call_lt r hr))
    · intro result hresult hstatus
      exact absurd hstatus (houtcome hresult)
  · refine ⟨hext, Nat.le_succ _, [_], rfl, ?_⟩
    intro r hr
    rw [List.mem_singleton.mp hr]
    exact Nat.le_refl _

theorem of_issued (hw : Chronicle w) (hw' : Chronicle w')
    (hissued : Issued w.kernel k handle object)
    (hgrows : Grows (w.entering k object) w')
    (houtcome : ∀ {result}, outcome = .ok result →
      result.handle = some handle) :
    Chronicle (World.ending w' w outcome) ∧
      Grows w (World.ending w' w outcome) := by
  obtain ⟨later, hrecords, hlater⟩ := hgrows.records
  have hentered : .entered w.rest.calls w.kernel k object ∈
      w'.rest.records := by
    rw [hrecords]
    exact List.mem_append_left _ (List.mem_append_right _
      (List.mem_singleton_self _))
  constructor
  · refine hw'.ending hgrows.calls ?_ ?_
    · -- Every call that has ended is older, or began inside the callback.
      intro r hr hcall
      rw [hrecords] at hr
      rcases List.mem_append.mp hr with hr | hr
      · rcases List.mem_append.mp hr with hr | hr
        · exact absurd (Record.call_of_ended hcall)
            (Nat.ne_of_lt (hw.call_lt r hr))
        · rw [List.mem_singleton.mp hr] at hcall
          nomatch hcall
      · exact absurd (Record.call_of_ended hcall)
          (Nat.ne_of_gt (hlater r hr))
    · intro result hresult _
      exact ⟨handle, houtcome hresult, w.kernel, k, object, hentered, hissued,
        hgrows.kernel.names hissued.names⟩
  · refine ⟨hissued.extended.trans hgrows.kernel,
      Nat.le_trans (Nat.le_succ _) hgrows.calls,
      .entered w.rest.calls w.kernel k object ::
        (later ++ [.ended w.rest.calls outcome w'.kernel]), ?_, ?_⟩
    · simp [World.ending, World.record, hrecords, World.entering,
        World.calling]
    · intro r hr
      rcases List.mem_cons.mp hr with rfl | hr
      · exact Nat.le_refl _
      · rcases List.mem_append.mp hr with hr | hr
        · exact Nat.le_of_lt (hlater r hr)
        · rw [List.mem_singleton.mp hr]
          exact Nat.le_refl _

end Chronicle

/-! ## Runs -/

/-- Every run keeps the journal and its kernel in step. -/
theorem chronicle_of_run (R : Rounding) (code : Code) (w : World Journal)
    (hw : Chronicle w) : Chronicle (endState (code.run R) w) := by
  refine (Code.run_induction (R := R)
    (P := fun w w' => Chronicle w → Chronicle w' ∧ Grows w w')
    ?_ ?_ ?_ ?_ code w hw).1
  · intro w hw
    exact ⟨hw, .refl w⟩
  · intro w w' w'' h h' hw
    have hw' := h hw
    have hw'' := h' hw'.1
    exact ⟨hw''.1, hw'.2.trans hw''.2⟩
  · intro w k outcome hissue houtcome hw
    have hstep := issue_step R hw.consistent
    rw [hissue] at hstep
    obtain ⟨_, hhandles, hkobjects, hk⟩ | _ := hstep
    have hext : Extends w.kernel k := by
      constructor
      · rw [hhandles]
        exact id
      · rw [hkobjects]
        exact id
    refine hw.of_exhausted hk hext ?_
    rintro result rfl
    rw [Except.ok.inj houtcome]
    nofun
  · intro w k handle object w' outcome hissue hbody houtcome hw
    have hstep := issue_step R hw.consistent
    rw [hissue] at hstep
    obtain _ | ⟨_, _, hissued, hk⟩ := hstep
    obtain ⟨hw', hgrows⟩ := hbody (hw.entering hk hissued)
    refine hw.of_issued hw' hissued hgrows ?_
    rintro result rfl
    rcases houtcome with houtcome | ⟨e, houtcome⟩
    · rw [Except.ok.inj houtcome]
    · nomatch houtcome

/-- The two records do not issue the same handle or the same koid. -/
def Record.Apart (r r' : Record) : Prop :=
  ∀ handle object handle' object', r.Issues handle object →
    r'.Issues handle' object' → handle ≠ handle' ∧ object.id ≠ object'.id

instance : Std.Symm Record.Apart where
  symm _ _ h handle object handle' object' hr hr' :=
    let ⟨hhandle, hkoid⟩ := h handle' object' handle object hr' hr
    ⟨hhandle.symm, hkoid.symm⟩

/-- The tables along a run: in every state each handle names an object of its
own, nothing in the tables changes, no key is issued twice, and a call that
returns OK returns the handle of the object that its callback got. -/
structure TablesConsistent (w : World Journal) : Prop where
  handle_names : ∀ k ∈ w.moments, ∀ handle entry,
    k.handles handle = some entry →
    ∃ object, k.kobjects entry.koid = some object ∧ object.id = entry.koid
  koids_distinct : ∀ k ∈ w.moments, ∀ handle handle' entry entry',
    k.handles handle = some entry → k.handles handle' = some entry' →
    handle ≠ handle' → entry.koid ≠ entry'.koid
  entries_kept : w.moments.Pairwise Extends
  root_kept : ∀ k ∈ w.moments,
    k.handles rootRealmHandle = some ⟨rootRealmKoid, rightNone⟩ ∧
      k.kobjects rootRealmKoid = some ⟨0, .realm, rootRealmKoid⟩
  issues : ∀ call before after process,
    .entered call before after process ∈ w.rest.records →
    ∃ handle, Issued before after handle process
  issued_once : w.rest.records.Pairwise Record.Apart
  root_not_issued : ∀ r ∈ w.rest.records, ∀ handle object,
    r.Issues handle object →
    handle ≠ rootRealmHandle ∧ object.id ≠ rootRealmKoid
  entered_once : (w.rest.records.filterMap Record.enteredCall).Nodup
  returns : ∀ r ∈ w.rest.records, ∀ handle k, r.Returns handle k →
    ∃ handle', handle = some handle' ∧ handle' ≠ invalidHandle ∧
      handle' ≠ rootRealmHandle ∧
      ∃ before after process,
        .entered r.call before after process ∈ w.rest.records ∧
        Names k handle' process
  returned_once : w.rest.records.Pairwise fun r r' =>
    ∀ handle k handle' k', r.Returns handle k → r'.Returns handle' k' →
      handle ≠ handle'

namespace Chronicle

variable {w : World Journal} {k : Kernel} {r : Record} {handle : RawHandle}
  {object : KernelObject}

/-- Two records in the order of a run, with the kernels of both. -/
theorem records_ordered (hw : Chronicle w) :
    w.rest.records.Pairwise fun r r' =>
      ∀ k ∈ r.kernels, ∀ k' ∈ r'.kernels, Extends k k' := by
  have hpast : w.past.Pairwise Extends :=
    (List.pairwise_append.mp hw.timeline.ordered).1
  exact (List.pairwise_flatMap.mp (List.pairwise_cons.mp hpast).2).2

theorem new_extends (hw : Chronicle w) (hk : k ∈ w.moments) :
    Extends Kernel.new k := by
  rcases List.mem_cons.mp hk with rfl | hk
  · exact .refl _
  · exact (List.pairwise_cons.mp hw.timeline.ordered).1 k hk

theorem kernels_mem (hr : r ∈ w.rest.records) (hk : k ∈ r.kernels) :
    k ∈ w.moments :=
  List.mem_append_left _
    (List.mem_cons_of_mem _ (List.mem_flatMap.mpr ⟨r, hr, hk⟩))

/-- What is free in a later state has not been issued before. -/
theorem issued_once (hw : Chronicle w) :
    w.rest.records.Pairwise Record.Apart := by
  refine hw.records_ordered.imp ?_
  intro r r' hextends handle object handle' object' hr hr'
  cases r with
  | ended => exact hr.elim
  | entered call before after process =>
      cases r' with
      | ended => exact hr'.elim
      | entered call' before' after' process' =>
          obtain ⟨rfl, hissued⟩ := hr
          obtain ⟨rfl, hissued'⟩ := hr'
          have hext : Extends after before' :=
            hextends after (by simp [Record.kernels]) before'
              (by simp [Record.kernels])
          obtain ⟨entry, hentry, -⟩ := hissued.names
          constructor
          · rintro rfl
            have hkept := hext.handles hentry
            rw [hissued'.handle_free] at hkept
            nomatch hkept
          · intro hkoid
            have hkept : before'.kobjects process.id = some process :=
              hext.kobjects (by rw [hissued.kobjects, Function.update_self])
            rw [hkoid, hissued'.koid_free] at hkept
            nomatch hkept

theorem root_not_issued (hw : Chronicle w) (hr : r ∈ w.rest.records)
    (hissues : r.Issues handle object) :
    handle ≠ rootRealmHandle ∧ object.id ≠ rootRealmKoid := by
  cases r with
  | ended => exact hissues.elim
  | entered call before after process =>
      obtain ⟨rfl, hissued⟩ := hissues
      have hext : Extends Kernel.new before :=
        hw.new_extends (kernels_mem hr (by simp [Record.kernels]))
      have hhandle : before.handles rootRealmHandle =
        some ⟨rootRealmKoid, rightNone⟩ := hext.handles rfl
      have hobject : before.kobjects rootRealmKoid =
        some ⟨0, .realm, rootRealmKoid⟩ := hext.kobjects rfl
      constructor
      · rintro rfl
        rw [hissued.handle_free] at hhandle
        nomatch hhandle
      · intro hkoid
        rw [← hkoid, hissued.koid_free] at hobject
        nomatch hobject

/-- A returned handle with the record of the callback it was issued for. -/
theorem returns_issued (hw : Chronicle w) {returned : Option RawHandle}
    (hr : r ∈ w.rest.records) (hreturns : r.Returns returned k) :
    ∃ handle, returned = some handle ∧ ∃ before after process,
      .entered r.call before after process ∈ w.rest.records ∧
        (Record.entered r.call before after process).Issues handle process ∧
        Names k handle process := by
  obtain ⟨handle, hreturned, before, after, process, hentered, hissued,
    hnames⟩ := hw.returns hr hreturns
  exact ⟨handle, hreturned, before, after, process, hentered,
    ⟨rfl, hissued⟩, hnames⟩

theorem endedCall_of_returns {returned : Option RawHandle}
    (hreturns : r.Returns returned k) : r.endedCall = some r.call := by
  cases r with
  | entered => exact hreturns.elim
  | ended => rfl

theorem returned_once (hw : Chronicle w) :
    w.rest.records.Pairwise fun r r' =>
      ∀ handle k handle' k', r.Returns handle k → r'.Returns handle' k' →
        handle ≠ handle' := by
  refine (List.pairwise_filterMap.mp hw.ended_once).imp_of_mem ?_
  intro r r' hr hr' hcalls returned k returned' k' hreturns hreturns'
  have hne : r.call ≠ r'.call :=
    hcalls _ (endedCall_of_returns hreturns) _ (endedCall_of_returns hreturns')
  obtain ⟨handle, rfl, before, after, process, hentered, hissues, -⟩ :=
    hw.returns_issued hr hreturns
  obtain ⟨handle', rfl, before', after', process', hentered', hissues', -⟩ :=
    hw.returns_issued hr' hreturns'
  have hentries : Record.entered r.call before after process ≠
      .entered r'.call before' after' process' :=
    fun heq => hne (Record.entered.inj heq).1
  have hapart := hw.issued_once.forall hentered hentered' hentries
  exact fun heq => (hapart _ _ _ _ hissues hissues').1 (Option.some.inj heq)

end Chronicle

/-- In every run, whatever the callbacks do, the tables stay consistent. -/
theorem run_keeps_tables_consistent (R : Rounding) (code : Code) :
    TablesConsistent (endState (code.run R) World.start) := by
  have hw := chronicle_of_run R code World.start .start
  constructor
  case handle_names =>
    intro k hk handle entry hentry
    exact (hw.timeline.inv k hk).handle_names hentry
  case koids_distinct =>
    intro k hk handle handle' entry entry' hentry hentry' hne hkoid
    exact hne ((hw.timeline.inv k hk).handle_unique hentry hentry' hkoid)
  case entries_kept => exact hw.timeline.ordered
  case root_kept =>
    intro k hk
    have hext := hw.new_extends hk
    exact ⟨hext.handles rfl, hext.kobjects rfl⟩
  case issues =>
    intro call before after process hr
    exact hw.issues hr
  case issued_once => exact hw.issued_once
  case root_not_issued =>
    intro r hr handle object hissues
    exact hw.root_not_issued hr hissues
  case entered_once => exact hw.entered_once
  case returns =>
    intro r hr returned k hreturns
    obtain ⟨handle, hreturned, before, after, process, hentered, hissues,
      hnames⟩ := hw.returns_issued hr hreturns
    have hroot := (hw.root_not_issued hentered hissues).1
    refine ⟨handle, hreturned, ?_, hroot, before, after, process, hentered,
      hnames⟩
    have hafter := hw.timeline.inv after
      (Chronicle.kernels_mem hentered (by simp [Record.kernels]))
    obtain ⟨entry, hentry, -⟩ := hissues.2.names
    have hbound := (hafter.handle_bound hentry).1
    rintro rfl
    nomatch hbound
  case returned_once => exact hw.returned_once

end Fiber.KernelOld
