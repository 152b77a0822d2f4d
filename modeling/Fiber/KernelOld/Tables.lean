import Fiber.KernelOld.Kernel

/-!
# The tables of the old kernel

The two id generators run apart, since a failing draw of a koid wastes a
handle.  But every key of a table lies at or below its generator, so a key that
is drawn is free.  An issue either leaves the tables as they are or writes one
handle and one object under free keys.
-/

namespace Fiber.KernelOld

open SdkTypes

/-! ## One state -/

/-- The tables and the generators fit together. -/
structure Consistent (k : Kernel) : Prop where
  handle_names : ∀ {handle entry}, k.handles handle = some entry →
    ∃ object, k.kobjects entry.koid = some object ∧ object.id = entry.koid
  handle_unique : ∀ {handle handle' entry entry'},
    k.handles handle = some entry → k.handles handle' = some entry' →
    entry.koid = entry'.koid → handle = handle'
  handle_bound : ∀ {handle : ℤ} {entry}, k.handles handle = some entry →
    1 ≤ handle ∧ handle ≤ k.handleGen.lastId ∧ handle < maxSafeInteger
  koid_bound : ∀ {koid : ℤ} {object}, k.kobjects koid = some object →
    koid ≤ k.koidGen.lastId ∧ koid < maxSafeInteger
  handleGen_pos : 1 ≤ k.handleGen.lastId
  koidGen_pos : 1 ≤ k.koidGen.lastId

/-- Every entry of the tables stays as it is. -/
structure Extends (k k' : Kernel) : Prop where
  handles : ∀ {handle entry}, k.handles handle = some entry →
    k'.handles handle = some entry
  kobjects : ∀ {koid object}, k.kobjects koid = some object →
    k'.kobjects koid = some object

/-- The tables of `k'` are those of `k` with one handle and one object, both
under keys that were free. -/
structure Issued (k k' : Kernel) (handle : RawHandle) (object : KernelObject) :
    Prop where
  handle_free : k.handles handle = none
  koid_free : k.kobjects object.id = none
  handles : ∃ rights, k'.handles =
    Function.update k.handles handle (some ⟨object.id, rights⟩)
  kobjects : k'.kobjects = Function.update k.kobjects object.id (some object)

/-- The handle names the object. -/
def Names (k : Kernel) (handle : RawHandle) (object : KernelObject) : Prop :=
  ∃ entry, k.handles handle = some entry ∧
    k.kobjects entry.koid = some object

theorem Extends.refl (k : Kernel) : Extends k k := ⟨id, id⟩

theorem Extends.trans {k k' k'' : Kernel} (h : Extends k k')
    (h' : Extends k' k'') : Extends k k'' :=
  ⟨fun hentry => h'.handles (h.handles hentry),
    fun hobject => h'.kobjects (h.kobjects hobject)⟩

theorem Extends.names {k k' : Kernel} (h : Extends k k') {handle : RawHandle}
    {object : KernelObject} (hnames : Names k handle object) :
    Names k' handle object := by
  obtain ⟨entry, hentry, hobject⟩ := hnames
  exact ⟨entry, h.handles hentry, h.kobjects hobject⟩

/-- An entry stays where it is when another key is written. -/
theorem update_of_free {α : Type} {table : ℤ → Option α} {key key' : ℤ} {a : α}
    (hfree : table key = none) (h : table key' = some a) (b : Option α) :
    Function.update table key b key' = some a := by
  have hne : key' ≠ key := by
    rintro rfl
    rw [hfree] at h
    nomatch h
  rw [Function.update_of_ne hne, h]

namespace Issued

variable {k k' : Kernel} {handle : RawHandle} {object : KernelObject}

theorem names (h : Issued k k' handle object) : Names k' handle object := by
  obtain ⟨rights, hhandles⟩ := h.handles
  refine ⟨⟨object.id, rights⟩, ?_, ?_⟩
  · rw [hhandles, Function.update_self]
  · rw [h.kobjects, Function.update_self]

/-- What a handle names after an issue. -/
theorem handle_cases (h : Issued k k' handle object) {handle' : RawHandle}
    {entry : IKernelHandle} (hentry : k'.handles handle' = some entry) :
    handle' = handle ∧ entry.koid = object.id ∨
      k.handles handle' = some entry := by
  obtain ⟨rights, hhandles⟩ := h.handles
  by_cases hsame : handle' = handle
  · rw [hhandles, hsame, Function.update_self] at hentry
    have hkoid := congrArg IKernelHandle.koid (Option.some.inj hentry)
    exact .inl ⟨hsame, hkoid.symm⟩
  · rw [hhandles, Function.update_of_ne hsame] at hentry
    exact .inr hentry

theorem koid_cases (h : Issued k k' handle object) {koid : Koid}
    {object' : KernelObject} (hobject : k'.kobjects koid = some object') :
    koid = object.id ∨ k.kobjects koid = some object' := by
  by_cases hsame : koid = object.id
  · exact .inl hsame
  · rw [h.kobjects, Function.update_of_ne hsame] at hobject
    exact .inr hobject

theorem extended (h : Issued k k' handle object) : Extends k k' := by
  obtain ⟨rights, hhandles⟩ := h.handles
  constructor
  · intro handle' entry hentry
    rw [hhandles]
    exact update_of_free h.handle_free hentry _
  · intro koid object' hobject
    rw [h.kobjects]
    exact update_of_free h.koid_free hobject _

end Issued

/-! ## One issue -/

/-- The object that the next issue constructs. -/
def Kernel.nextProcess (k : Kernel) : KernelObject :=
  ⟨k.constructed, .process, k.koidGen.lastId + 1⟩

/-- How an issue ends: a generator is exhausted, or the next handle and the
next object are written. -/
inductive IssueStep (k : Kernel) :
    Kernel × Option (RawHandle × KernelObject) → Prop
  | exhausted {k' : Kernel}
      (hgen : k.handleGen.Exhausted ∨ k.koidGen.Exhausted)
      (hhandles : k'.handles = k.handles)
      (hkobjects : k'.kobjects = k.kobjects) (hk' : Consistent k') :
      IssueStep k (k', none)
  | issued {k' : Kernel} (hhandleGen : ¬ k.handleGen.Exhausted)
      (hkoidGen : ¬ k.koidGen.Exhausted)
      (hissued : Issued k k' (k.handleGen.lastId + 1) k.nextProcess)
      (hk' : Consistent k') :
      IssueStep k (k', some (k.handleGen.lastId + 1, k.nextProcess))

namespace Consistent

variable {k k' : Kernel} {handle : RawHandle} {object : KernelObject}

theorem handle_free (hk : Consistent k) :
    k.handles (k.handleGen.lastId + 1) = none := by
  rcases hentry : k.handles (k.handleGen.lastId + 1) with _ | entry
  · rfl
  · have := hk.handle_bound hentry
    omega

theorem koid_free (hk : Consistent k) :
    k.kobjects (k.koidGen.lastId + 1) = none := by
  rcases hobject : k.kobjects (k.koidGen.lastId + 1) with _ | object
  · rfl
  · have := hk.koid_bound hobject
    omega

/-- Other generators with the same tables, as long as no key lies above
them. -/
theorem of_tables (hk : Consistent k) (hhandles : k'.handles = k.handles)
    (hkobjects : k'.kobjects = k.kobjects)
    (hhandleGen : k.handleGen.lastId ≤ k'.handleGen.lastId ∨
      maxSafeInteger ≤ k'.handleGen.lastId)
    (hkoidGen : k.koidGen.lastId ≤ k'.koidGen.lastId ∨
      maxSafeInteger ≤ k'.koidGen.lastId) : Consistent k' where
  handle_names := by
    rw [hhandles, hkobjects]
    exact hk.handle_names
  handle_unique := by
    rw [hhandles]
    exact hk.handle_unique
  handle_bound := by
    rw [hhandles]
    intro handle entry hentry
    have := hk.handle_bound hentry
    omega
  koid_bound := by
    rw [hkobjects]
    intro koid object hobject
    have := hk.koid_bound hobject
    omega
  handleGen_pos := by
    have := hk.handleGen_pos
    have : 1 ≤ maxSafeInteger := by decide
    omega
  koidGen_pos := by
    have := hk.koidGen_pos
    have : 1 ≤ maxSafeInteger := by decide
    omega

/-- The next handle and the next object keep the tables consistent. -/
theorem of_issued (hk : Consistent k)
    (hissued : Issued k k' (k.handleGen.lastId + 1) k.nextProcess)
    (hhandleGen : k'.handleGen.lastId = k.handleGen.lastId + 1)
    (hkoidGen : k'.koidGen.lastId = k.koidGen.lastId + 1)
    (hhandleLimit : ¬ k.handleGen.Exhausted)
    (hkoidLimit : ¬ k.koidGen.Exhausted) : Consistent k' where
  handle_names := by
    intro handle entry hentry
    rcases hissued.handle_cases hentry with ⟨-, hkoid⟩ | hentry
    · refine ⟨k.nextProcess, ?_, hkoid.symm⟩
      rw [hkoid, hissued.kobjects, Function.update_self]
    · obtain ⟨object, hobject, hid⟩ := hk.handle_names hentry
      exact ⟨object, hissued.extended.kobjects hobject, hid⟩
  handle_unique := by
    -- The koid of an entry that was there before lies below the new one.
    have hold : ∀ {handle entry}, k.handles handle = some entry →
        entry.koid ≠ k.nextProcess.id := by
      intro handle entry hentry heq
      obtain ⟨object, hobject, -⟩ := hk.handle_names hentry
      rw [heq, hissued.koid_free] at hobject
      nomatch hobject
    intro handle handle' entry entry' hentry hentry' hkoid
    rcases hissued.handle_cases hentry with ⟨hnew, hid⟩ | hentry <;>
      rcases hissued.handle_cases hentry' with ⟨hnew', hid'⟩ | hentry'
    · rw [hnew, hnew']
    · exact absurd (hkoid.symm.trans hid) (hold hentry')
    · exact absurd (hkoid.trans hid') (hold hentry)
    · exact hk.handle_unique hentry hentry' hkoid
  handle_bound := by
    intro handle entry hentry
    have hpos := hk.handleGen_pos
    simp only [IdGen.Exhausted, Int.not_le] at hhandleLimit
    rcases hissued.handle_cases hentry with ⟨hnew, -⟩ | hentry
    · rw [hnew]
      omega
    · have := hk.handle_bound hentry
      omega
  koid_bound := by
    intro koid object hobject
    simp only [IdGen.Exhausted, Int.not_le] at hkoidLimit
    rcases hissued.koid_cases hobject with hnew | hobject
    · simp only [hnew, Kernel.nextProcess]
      omega
    · have := hk.koid_bound hobject
      omega
  handleGen_pos := by
    have := hk.handleGen_pos
    omega
  koidGen_pos := by
    have := hk.koidGen_pos
    omega

end Consistent

theorem issue_step (R : Rounding) {k : Kernel} (hk : Consistent k) :
    IssueStep k (k.issue R) := by
  have hhandleGen : 0 ≤ k.handleGen.lastId := Int.le_of_lt hk.handleGen_pos
  have hkoidGen : 0 ≤ k.koidGen.lastId := Int.le_of_lt hk.koidGen_pos
  by_cases hhandle : k.handleGen.Exhausted
  · obtain ⟨gen, hgen, hdraw⟩ :=
      IdGen.getNext_of_exhausted R hhandleGen hhandle
    simp only [Kernel.issue, hdraw]
    exact .exhausted (.inl hhandle) rfl rfl
      (hk.of_tables rfl rfl (.inr hgen) (.inl (Int.le_refl _)))
  · have hdraw := IdGen.getNext_of_not_exhausted R hhandleGen hhandle
    by_cases hkoid : k.koidGen.Exhausted
    · obtain ⟨gen, hgen, hdraw'⟩ :=
        IdGen.getNext_of_exhausted R hkoidGen hkoid
      simp only [Kernel.issue, hdraw, hdraw']
      exact .exhausted (.inr hkoid) rfl rfl
        (hk.of_tables rfl rfl (.inl (Int.le_of_lt (Int.lt_succ _)))
          (.inr hgen))
    · have hdraw' := IdGen.getNext_of_not_exhausted R hkoidGen hkoid
      simp only [Kernel.issue, hdraw, hdraw']
      refine .issued hhandle hkoid ?_
        (hk.of_issued ?_ rfl rfl hhandle hkoid) <;>
      exact ⟨hk.handle_free, hk.koid_free, ⟨_, rfl⟩, rfl⟩

/-- A table with one entry. -/
theorem update_of_empty {α : Type} {key key' : ℤ} {a b : α}
    (h : Function.update (fun _ => none) key (some a) key' = some b) :
    key' = key ∧ b = a := by
  by_cases hsame : key' = key
  · rw [hsame, Function.update_self] at h
    exact ⟨hsame, (Option.some.inj h).symm⟩
  · rw [Function.update_of_ne hsame] at h
    nomatch h

theorem consistent_new : Consistent Kernel.new where
  handle_names := by
    intro handle entry hentry
    obtain ⟨-, rfl⟩ := update_of_empty hentry
    exact ⟨⟨0, .realm, rootRealmKoid⟩, rfl, rfl⟩
  handle_unique := by
    intro handle handle' entry entry' hentry hentry' _
    rw [(update_of_empty hentry).1, (update_of_empty hentry').1]
  handle_bound := by
    intro handle entry hentry
    rw [(update_of_empty hentry).1]
    decide
  koid_bound := by
    intro koid object hobject
    rw [(update_of_empty hobject).1]
    decide
  handleGen_pos := by decide
  koidGen_pos := by decide

end Fiber.KernelOld
