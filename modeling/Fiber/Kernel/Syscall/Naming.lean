import Fiber.Kernel.Syscall.ProcessCreate

/-!
# The name of a new process

The caller passes the name as the bytes of a view.  The source decodes the
whole buffer under the view, removes the first characters where its comment
announces a truncation, and gives the process a fixed text instead.
-/

namespace Fiber.Kernel

open Job (perform)

/-- The bytes of a buffer that a view shows. -/
def Uint8Array.bytes (view : Uint8Array) : List UInt8 :=
  (view.buffer.drop view.byteOffset).take view.length

/-- The name that the caller asked for: its bytes, decoded, up to the maximal
length. -/
def requestedName (env : Environment) (args : ProcessCreateArgs) : String :=
  String.ofList ((env.decode (args.name.bytes.take args.nameLen)).toList.take
    fxMaxNameLen)

/-- `process` is the one new process, in one job; nothing else about the jobs
changes. -/
def NewProcess (o o' : Objects) (process : ProcessDispatcher) : Prop :=
  process.ref = o.processes ∧ ∃ job, ∀ q, o'.jobs.get q =
    { o.jobs.get q with
      procs := (o.jobs.get q).procs ++ if q = job then [process] else [] }

/-- A call that returns OK leaves a new process with the requested name. -/
def KeepsName (env : Environment) (tlScopes : List ProcessContext)
    (args : ProcessCreateArgs) (o : Objects) : Prop :=
  (perform (sysProcessCreate env tlScopes args) o).2 = .ok .ok →
    ∃ process,
      NewProcess o (perform (sysProcessCreate env tlScopes args) o).1
        process ∧
      process.getName = requestedName env args

/-- The inputs for which the syscall returns OK. -/
structure Accepted (env : Environment) (tlScopes : List ProcessContext)
    (args : ProcessCreateArgs) (o : Objects) (up : ProcessDispatcher) :
    Prop where
  admitted : Admitted env tlScopes args up
  lookup : LookupSucceeds env up args
  job : o.jobs.Allocated (env.manageLookup up args).2
  ready : (o.jobs.get (env.manageLookup up args).2).state = .ready
  handles : processHandleStatus env args o = .ok →
    vmarHandleStatus env args o = .ok

variable {env : Environment} {tlScopes : List ProcessContext}
  {args : ProcessCreateArgs} {o o' : Objects} {up : ProcessDispatcher}

theorem Ending.accepted {result : Except JsError Status}
    (h : Ending env tlScopes args o o' result) (hok : result = .ok .ok) :
    ∃ up, Accepted env tlScopes args o up := by
  rcases h with _ | _ | ⟨-, -, hpolicy⟩ | ⟨-, hlookup⟩ | _ | _ |
    ⟨hadmitted, hlookup, hjob, hstate, hhandle⟩ |
    ⟨hadmitted, hlookup, hjob, hstate, -⟩
  · simp at hok
  · simp at hok
  · exact absurd (Except.ok.inj hok) hpolicy
  · exact absurd (Or.inr (Except.ok.inj hok)) hlookup
  · simp at hok
  · simp at hok
  · exact ⟨_, hadmitted, hlookup, hjob, hstate,
      fun hok' => absurd hok' hhandle⟩
  · exact ⟨_, hadmitted, hlookup, hjob, hstate,
      fun _ => Except.ok.inj hok⟩

/-- With these inputs the new process gets the fixed name. -/
theorem Accepted.perform_eq (h : Accepted env tlScopes args o up) :
    perform (sysProcessCreate env tlScopes args) o =
      (o.addProcess (env.manageLookup up args).2 "TODO sp here",
        .ok .ok) := by
  rw [sysProcessCreate_eq h.admitted h.lookup, perform,
    createWithHandles_of_ready h.job h.ready]
  by_cases hhandle : processHandleStatus env args o = .ok
  · rw [if_pos hhandle, h.handles hhandle]
  · rw [if_neg hhandle]

theorem newProcess_addProcess (o : Objects) (job : ℕ) (name : String) :
    NewProcess o (o.addProcess job name) (o.processNamed name) :=
  ⟨rfl, job, fun q => Job.addProcess_get o job q name⟩

/-- There is only one new process. -/
theorem NewProcess.eq {process process' : ProcessDispatcher}
    (h : NewProcess o o' process) (h' : NewProcess o o' process') :
    process = process' := by
  obtain ⟨-, job, hget⟩ := h
  obtain ⟨-, job', hget'⟩ := h'
  have hprocs := congrArg JobDispatcher.procs
    ((hget job).symm.trans (hget' job))
  simp only [if_pos, List.append_cancel_left_eq] at hprocs
  split at hprocs
  · exact (List.cons.inj hprocs).1
  · simp at hprocs

/-- A name shorter than the limit is not truncated. -/
theorem ofList_take_eq_iff {s t : String} {n : ℕ}
    (ht : t.toList.length < n) :
    t = String.ofList (s.toList.take n) ↔ s = t := by
  constructor
  · intro h
    have hlist : t.toList = s.toList.take n := by rw [h, String.toList_ofList]
    have hlen : s.toList.length < n := by
      rw [hlist, List.length_take] at ht
      omega
    rw [List.take_of_length_le (Nat.le_of_lt hlen)] at hlist
    exact String.toList_inj.mp hlist.symm
  · rintro rfl
    rw [List.take_of_length_le (Nat.le_of_lt ht), String.ofList_toList]

theorem Accepted.keepsName_iff (h : Accepted env tlScopes args o up) :
    KeepsName env tlScopes args o ↔
      env.decode (args.name.bytes.take args.nameLen) = "TODO sp here" := by
  rw [KeepsName, h.perform_eq, ← ofList_take_eq_iff (n := fxMaxNameLen)
    (by decide : "TODO sp here".toList.length < fxMaxNameLen)]
  have hnew := newProcess_addProcess o (env.manageLookup up args).2
    "TODO sp here"
  constructor
  · intro hkeeps
    obtain ⟨process, hprocess, hname⟩ := hkeeps rfl
    rw [hprocess.eq hnew] at hname
    exact hname
  · exact fun hname _ => ⟨_, hnew, hname⟩

/-- The new process has the requested name exactly if the bytes of the name
decode to the fixed text, or the call does not succeed. -/
theorem keeps_name_iff (env : Environment) (tlScopes : List ProcessContext)
    (args : ProcessCreateArgs) (o : Objects) :
    KeepsName env tlScopes args o ↔
      ∀ up, Accepted env tlScopes args o up →
        env.decode (args.name.bytes.take args.nameLen) =
          "TODO sp here" := by
  constructor
  · exact fun hkeeps up h => h.keepsName_iff.mp hkeeps
  · intro hname hok
    obtain ⟨up, h⟩ := (sysProcessCreate_ending env tlScopes args o).accepted
      hok
    exact h.keepsName_iff.mpr (hname up h) hok

/-- The bytes of "init", in a decoder for ASCII, do not become the name. -/
theorem not_keepsName_init :
    let env : Environment :=
      { Environment.ofLookup (fun _ _ _ => (.ok, 0)) with
        decode := fun bytes =>
          String.ofList (bytes.map fun b => Char.ofNat b.toNat) }
    ¬ KeepsName env [⟨⟨0, "userboot"⟩⟩, ⟨⟨1, "test0"⟩⟩]
      ⟨5, ⟨[105, 110, 105, 116], 0, 4⟩, 4, 0, 0, 1⟩
      (Job.machine.exec Objects.init [.createRoot]) := by
  intro env
  have haccepted : Accepted env [⟨⟨0, "userboot"⟩⟩, ⟨⟨1, "test0"⟩⟩]
      ⟨5, ⟨[105, 110, 105, 116], 0, 4⟩, 4, 0, 0, 1⟩
      (Job.machine.exec Objects.init [.createRoot]) ⟨1, "test0"⟩ :=
    ⟨⟨Or.inr rfl, rfl, rfl⟩, Or.inl rfl, (by decide : 0 < 1), rfl,
      fun _ => rfl⟩
  rw [haccepted.keepsName_iff]
  decide

end Fiber.Kernel
