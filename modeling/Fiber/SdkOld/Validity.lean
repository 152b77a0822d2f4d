import Fiber.SdkOld.Handles

/-!
# Which handle objects are valid

A handle object is valid unless its raw handle is the invalid one, so an absent
field makes it valid as well.  Creations look at the status first.  A duplicate
is made from any answer, also that of a failed syscall.
-/

namespace Fiber.SdkOld

open SdkTypes

/-- The syscall succeeded and gave a handle in this field. -/
def Granted (result : Result) (field : Option RawHandle) : Prop :=
  result.status = .ok ∧ ∃ handle, field = some handle ∧ handle ≠ invalidHandle

/-- The object is valid exactly if its handle was granted, and its raw handle
is a number. -/
structure Exact (result : Result) (field : Option RawHandle) (made : Handle) :
    Prop where
  valid_iff : made.isValid = true ↔ Granted result field
  raw_ne : made.raw ≠ .undefined

variable {σ : Type}

/-- What the handle objects made in world `w` are to be. -/
structure ValidIfGranted (w : World σ) (realm : Realm) (process : Process)
    (handle : Handle) (name : String) (program : Raw) : Prop where
  processes : ∀ result w' made w'',
    (System.processCreate realm.raw name program).run w = .ok ⟨result⟩ w' →
    (Process.create realm name program).run w = .ok made w'' →
    Exact result result.handle made.toHandle
  realms : ∀ result w' made w'',
    (System.realmCreate realm.raw).run w = .ok ⟨result⟩ w' →
    (Realm.create realm).run w = .ok made w'' →
    Exact result result.handle made.toHandle
  duplicates : ∀ result w' made w'',
    (System.handleDuplicate handle.raw).run w = .ok ⟨result⟩ w' →
    handle.duplicate.run w = .ok made w'' → Exact result result.handle made
  pairs : ∀ result w' made w'',
    (System.channelCreate process.raw).run w = .ok ⟨result⟩ w' →
    (ChannelPair.create process).run w = .ok made w'' →
    (∀ channel, made.first = some channel →
      Exact result result.first channel.toHandle) ∧
    ∀ channel, made.second = some channel →
      Exact result result.second channel.toHandle

/-- The backend gives every handle of a successful syscall, and a failed
duplication gives the invalid handle. -/
structure AnswersFully (w : World σ) (realm : Realm) (process : Process)
    (handle : Handle) (name : String) (program : Raw) : Prop where
  processes : ∀ result w',
    (System.processCreate realm.raw name program).run w = .ok ⟨result⟩ w' →
    result.status = .ok → result.handle ≠ none
  realms : ∀ result w',
    (System.realmCreate realm.raw).run w = .ok ⟨result⟩ w' →
    result.status = .ok → result.handle ≠ none
  duplicates : ∀ result w',
    (System.handleDuplicate handle.raw).run w = .ok ⟨result⟩ w' →
    result.handle ≠ none ∧
      (result.status = .ok ∨ result.handle = some invalidHandle)
  pairs : ∀ result w',
    (System.channelCreate process.raw).run w = .ok ⟨result⟩ w' →
    result.status = .ok → result.first ≠ none ∧ result.second ≠ none

/-! ## One object -/

section

variable {result : Result} {field : Option RawHandle} {handle : RawHandle}

theorem isValid_number :
    (Handle.mk (.number handle)).isValid = true ↔ handle ≠ invalidHandle := by
  simp [Handle.isValid]

/-- An object made from a failed syscall is exact if it is invalid. -/
theorem exact_of_failed (hstatus : result.status ≠ .ok) :
    Exact result field ⟨.number invalidHandle⟩ where
  valid_iff := by
    rw [isValid_number]
    exact iff_of_false (fun hne => hne rfl) fun hgranted =>
      hstatus hgranted.1
  raw_ne := nofun

/-- An object made from a field is exact if the field is there, and if it holds
the invalid handle when the syscall failed. -/
theorem exact_ofField_iff :
    Exact result field ⟨.ofField field⟩ ↔
      field ≠ none ∧ (result.status = .ok ∨ field = some invalidHandle) := by
  rcases field with _ | handle
  · exact iff_of_false (fun hexact => hexact.raw_ne rfl) fun h => h.1 rfl
  · constructor
    · rintro ⟨hvalid, -⟩
      refine ⟨nofun, ?_⟩
      by_cases hhandle : handle = invalidHandle
      · exact .inr (congrArg some hhandle)
      · exact .inl (hvalid.mp (isValid_number.mpr hhandle)).1
    · rintro ⟨-, hcases⟩
      refine ⟨?_, nofun⟩
      rw [Raw.ofField, isValid_number]
      constructor
      · intro hne
        refine ⟨hcases.resolve_right ?_, handle, rfl, hne⟩
        exact fun hinvalid => hne (Option.some.inj hinvalid)
      · rintro ⟨-, handle', hhandle', hne⟩
        rwa [Option.some.inj hhandle']

theorem exact_of_ok_iff (hstatus : result.status = .ok) :
    Exact result field ⟨.ofField field⟩ ↔ field ≠ none := by
  rw [exact_ofField_iff]
  exact and_iff_left (.inl hstatus)

/-- What the creations of processes and of realms make of a result. -/
def madeFrom (result : Result) : Handle :=
  if result.status ≠ .ok then ⟨.number invalidHandle⟩
  else ⟨.ofField result.handle⟩

theorem exact_madeFrom_iff :
    Exact result result.handle (madeFrom result) ↔
      (result.status = .ok → result.handle ≠ none) := by
  by_cases hstatus : result.status = .ok
  · rw [madeFrom, if_neg (not_not.mpr hstatus), exact_of_ok_iff hstatus]
    exact ⟨fun hne _ => hne, fun hne => hne hstatus⟩
  · rw [madeFrom, if_pos hstatus]
    exact iff_of_true (exact_of_failed hstatus) fun hok =>
      absurd hok hstatus

end

/-! ## One creation -/

section

variable {w w' : World σ} {realm : Realm} {process : Process}
  {handle : Handle} {name : String} {program : Raw} {result : Result}

/-- The end of both creations. -/
theorem pure_madeFrom {α : Type} (wrap : Handle → α) (result : Result) :
    (if result.status ≠ .ok then pure (wrap ⟨.number invalidHandle⟩)
      else pure (wrap ⟨.ofField result.handle⟩) : SystemCode σ α) =
        pure (wrap (madeFrom result)) := by
  rw [madeFrom]
  split <;> rfl

theorem run_processCreate
    (hrun : (System.processCreate realm.raw name program).run w =
      .ok ⟨result⟩ w') :
    (Process.create realm name program).run w =
      .ok ⟨madeFrom result⟩ w' := by
  rw [Process.create, EStateM.run_bind, hrun]
  exact congrArg (EStateM.run · w') (pure_madeFrom Process.mk result)

theorem run_realmCreate
    (hrun : (System.realmCreate realm.raw).run w = .ok ⟨result⟩ w') :
    (Realm.create realm).run w = .ok ⟨madeFrom result⟩ w' := by
  rw [Realm.create, EStateM.run_bind, hrun]
  exact congrArg (EStateM.run · w') (pure_madeFrom Realm.mk result)

theorem run_duplicate
    (hrun : (System.handleDuplicate handle.raw).run w = .ok ⟨result⟩ w') :
    handle.duplicate.run w = .ok ⟨.ofField result.handle⟩ w' := by
  rw [Handle.raw] at hrun
  rw [Handle.duplicate, EStateM.run_bind, hrun]
  rfl

theorem run_pairCreate_of_failed
    (hrun : (System.channelCreate process.raw).run w = .ok ⟨result⟩ w')
    (hstatus : result.status ≠ .ok) :
    (ChannelPair.create process).run w = .ok ⟨none, none⟩ w' := by
  rw [ChannelPair.create, EStateM.run_bind, hrun]
  simp only [hstatus, ne_eq, not_false_eq_true, if_true, EStateM.run_pure]

theorem run_pairCreate_of_ok
    (hrun : (System.channelCreate process.raw).run w = .ok ⟨result⟩ w')
    (hstatus : result.status = .ok) :
    (ChannelPair.create process).run w =
      .ok ⟨some ⟨⟨.ofField result.first⟩⟩, some ⟨⟨.ofField result.second⟩⟩⟩
        w' := by
  rw [ChannelPair.create, EStateM.run_bind, hrun]
  simp only [hstatus, ne_eq, not_true_eq_false, if_false, EStateM.run_pure]

theorem answersFully_of_valid
    (hvalid : ValidIfGranted w realm process handle name program) :
    AnswersFully w realm process handle name program where
  processes := by
    intro result w' hrun
    exact exact_madeFrom_iff.mp
      (hvalid.processes result w' _ w' hrun (run_processCreate hrun))
  realms := by
    intro result w' hrun
    exact exact_madeFrom_iff.mp
      (hvalid.realms result w' _ w' hrun (run_realmCreate hrun))
  duplicates := by
    intro result w' hrun
    exact exact_ofField_iff.mp
      (hvalid.duplicates result w' _ w' hrun (run_duplicate hrun))
  pairs := by
    intro result w' hrun hstatus
    obtain ⟨hfirst, hsecond⟩ :=
      hvalid.pairs result w' _ w' hrun (run_pairCreate_of_ok hrun hstatus)
    exact ⟨(exact_of_ok_iff hstatus).mp (hfirst _ rfl),
      (exact_of_ok_iff hstatus).mp (hsecond _ rfl)⟩

theorem valid_of_answersFully
    (hfull : AnswersFully w realm process handle name program) :
    ValidIfGranted w realm process handle name program where
  processes := by
    intro result w' made w'' hrun hmade
    rw [run_processCreate hrun] at hmade
    obtain ⟨rfl, -⟩ := EStateM.Result.ok.inj hmade
    exact exact_madeFrom_iff.mpr (hfull.processes result w' hrun)
  realms := by
    intro result w' made w'' hrun hmade
    rw [run_realmCreate hrun] at hmade
    obtain ⟨rfl, -⟩ := EStateM.Result.ok.inj hmade
    exact exact_madeFrom_iff.mpr (hfull.realms result w' hrun)
  duplicates := by
    intro result w' made w'' hrun hmade
    rw [run_duplicate hrun] at hmade
    obtain ⟨rfl, -⟩ := EStateM.Result.ok.inj hmade
    exact exact_ofField_iff.mpr (hfull.duplicates result w' hrun)
  pairs := by
    intro result w' made w'' hrun hmade
    by_cases hstatus : result.status = .ok
    · rw [run_pairCreate_of_ok hrun hstatus] at hmade
      obtain ⟨rfl, -⟩ := EStateM.Result.ok.inj hmade
      obtain ⟨hfirst, hsecond⟩ := hfull.pairs result w' hrun hstatus
      constructor
      · rintro channel ⟨⟩
        exact (exact_of_ok_iff hstatus).mpr hfirst
      · rintro channel ⟨⟩
        exact (exact_of_ok_iff hstatus).mpr hsecond
    · rw [run_pairCreate_of_failed hrun hstatus] at hmade
      obtain ⟨rfl, -⟩ := EStateM.Result.ok.inj hmade
      exact ⟨nofun, nofun⟩

end

/-- Against every backend, the objects are valid exactly if their handles were
granted, and never hold `undefined`, if and only if the backend gives every
handle of a successful syscall and no other one for a duplicate. -/
theorem objects_valid_iff (w : World σ) (realm : Realm) (process : Process)
    (handle : Handle) (name : String) (program : Raw) :
    ValidIfGranted w realm process handle name program ↔
      AnswersFully w realm process handle name program :=
  ⟨answersFully_of_valid, valid_of_answersFully⟩

/-- A backend that answers every syscall with one result. -/
def World.answering (result : Result) : World Unit where
  system :=
    { initialized := true
      syscall := some fun _ _ _ => pure ⟨result⟩
      useDirectCalls := some false }
  kernels := ⟨[], ()⟩

/-- A realm made by a kernel that reports OK without a handle is valid and
holds `undefined`, and a refused duplicate is valid. -/
theorem not_validIfGranted :
    (∃ w, (Realm.create ⟨⟨1⟩⟩).run (.answering { status := .ok }) =
        .ok ⟨⟨.undefined⟩⟩ w) ∧
      ¬ ValidIfGranted (.answering { status := .ok }) ⟨⟨1⟩⟩ ⟨⟨1⟩⟩ ⟨1⟩ ""
        0 ∧
      (∃ w, (Handle.mk 1).duplicate.run
        (.answering { status := .errBadHandle, handle := some 2 }) =
          .ok ⟨2⟩ w) ∧
      ¬ ValidIfGranted
        (.answering { status := .errBadHandle, handle := some 2 }) ⟨⟨1⟩⟩
        ⟨⟨1⟩⟩ ⟨1⟩ "" 0 := by
  refine ⟨⟨_, rfl⟩, fun hvalid => ?_, ⟨_, rfl⟩, fun hvalid => ?_⟩
  · exact (hvalid.realms { status := .ok } _ _ _ rfl rfl).raw_ne rfl
  · have hgranted := (hvalid.duplicates
      { status := .errBadHandle, handle := some 2 } _ _ _ rfl
      rfl).valid_iff.mp rfl
    exact absurd hgranted.1 (by decide)

end Fiber.SdkOld
