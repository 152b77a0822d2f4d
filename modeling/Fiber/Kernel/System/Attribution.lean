import Fiber.Kernel.Syscall.ArgumentTransfer
import Fiber.Kernel.System.Trail

/-!
# Attributing code to processes

While code of a process runs, the context of the process should be on top of
the stack, and the lookup at a syscall should find this process.  A scope is
only pushed around the first part of a process, it stays on the stack when an
exception leaves it, and the lookup reads the second element of the stack.  This
module determines the runs in which all code is attributed correctly all the
same.

As long as no exception leaves a scope while code of another process waits, the
stack can be told from the record: the contexts of the scopes that exceptions
have left come first, and those of the active scopes follow.
-/

namespace Fiber.Kernel

open Fiber.Support

namespace Observation

/-- The context of the process whose code runs is on top of the stack. -/
def OnTop (o : Observation) : Prop :=
  o.tlScopes.getLast? = some o.running.process

/-- The code runs with its own context on top, and a syscall is made for its
own process. -/
def Attributed (o : Observation) : Prop :=
  o.OnTop ∧ ∀ lookup, o.moment = .syscall lookup →
    lookup = .ok o.running.process.dispatcher

/-- The stack holds what exceptions have left, and then the active scopes. -/
def Aligned (o : Observation) : Prop := o.tlScopes = o.left ++ o.running.scopes

/-- A continuation begins outside of all scopes of its turn, and the lookup of a
syscall is that of the source. -/
def Faithful (o : Observation) : Prop :=
  (o.moment = .resumed → o.running.scopes = []) ∧
    ∀ lookup, o.moment = .syscall lookup →
      lookup = ProcessDispatcher.getCurrent o.tlScopes

end Observation

namespace Trail

/-- No exception has left a scope while code of another process waited. -/
def Calm (t : Trail) : Prop :=
  ∀ e ∈ t.escapes, ∀ p ∈ e.waiting, p = e.process

/-- Every continuation began when the last scope left by an exception was one
of its process. -/
def ResumesOwn (t : Trail) : Prop :=
  ∀ o ∈ t.observations, o.moment = .resumed →
    o.left.getLast? = some o.running.process

def AllOnTop (t : Trail) : Prop := ∀ o ∈ t.observations, o.OnTop

/-- The record of `t` is the beginning of that of `t'`. -/
structure Grows (t t' : Trail) : Prop where
  observations : t.observations ⊆ t'.observations
  escapes : t.escapes ⊆ t'.escapes

namespace Grows

variable {t t' t'' : Trail}

theorem refl (t : Trail) : Grows t t := ⟨List.Subset.refl _, List.Subset.refl _⟩

theorem trans (h : Grows t t') (h' : Grows t' t'') : Grows t t'' :=
  ⟨List.Subset.trans h.observations h'.observations,
    List.Subset.trans h.escapes h'.escapes⟩

theorem observed (t : Trail) (running : Running) (moment : Moment) :
    Grows t (t.observed running moment) :=
  ⟨List.subset_append_left _ _, List.Subset.refl _⟩

theorem pushed (t : Trail) (context : ProcessContext) :
    Grows t (t.pushed context) :=
  ⟨List.Subset.refl _, List.Subset.refl _⟩

theorem calm (h : Grows t t') (hcalm : t'.Calm) : t.Calm :=
  fun e he => hcalm e (h.escapes he)

theorem allOnTop (h : Grows t t') (htop : t'.AllOnTop) : t.AllOnTop :=
  fun o ho => htop o (h.observations ho)

theorem resumesOwn (h : Grows t t') (hown : t'.ResumesOwn) : t.ResumesOwn :=
  fun o ho => hown o (h.observations ho)

end Grows
end Trail

variable {running : Running} {process : ProcessContext}
  {t t' inside outside : Trail}

theorem Leaves.grows (h : Leaves running t t') : Trail.Grows t t' := by
  cases h with
  | returned => exact ⟨List.Subset.refl _, List.Subset.refl _⟩
  | threw => exact ⟨List.Subset.refl _, List.subset_append_left _ _⟩

theorem Leaves.observations_eq (h : Leaves running t t') :
    t'.observations = t.observations := by
  cases h <;> rfl

theorem Ran.grows (h : Ran running t t') : Trail.Grows t t' := by
  induction h with
  | ended => exact .observed ..
  | called _ ih => exact (Trail.Grows.observed ..).trans ih
  | started _ hleaves _ ihentry ihnext =>
      exact (Trail.Grows.observed ..).trans ((Trail.Grows.pushed ..).trans
        (ihentry.trans (hleaves.grows.trans ihnext)))

/-- What holds of all steps holds of those made before and of the new one. -/
theorem forall_mem_observed {P : Observation → Prop} {moment : Moment} :
    (∀ o ∈ (t.observed running moment).observations, P o) ↔
      (∀ o ∈ t.observations, P o) ∧
        P ⟨running, t.left, t.tlScopes, moment⟩ := by
  rw [Trail.observed, List.forall_mem_append, List.forall_mem_singleton]

/-- Code is observed before anything else happens. -/
theorem Ran.first (h : Ran running t t') :
    ∃ moment, ⟨running, t.left, t.tlScopes, moment⟩ ∈ t'.observations := by
  have hmade : ∀ moment, (⟨running, t.left, t.tlScopes, moment⟩ : Observation) ∈
      (t.observed running moment).observations :=
    fun moment => List.mem_append_right _ (List.mem_singleton_self _)
  cases h with
  | ended => exact ⟨_, hmade _⟩
  | called hnext => exact ⟨_, hnext.grows.observations (hmade _)⟩
  | started hentry hleaves hnext =>
      exact ⟨_, hnext.grows.observations (hleaves.grows.observations
        (hentry.grows.observations (hmade _)))⟩

/-! ## What code leaves on the stack -/

/-- The exception left a scope of the running process, while only code of this
process waited within what runs. -/
def Within (running e : Running) : Prop :=
  e.process = running.process ∧
    ∃ inner, e.waiting = running.waiting ++ inner ∧
      ∀ p ∈ inner, p = running.process

/-- From `t` to `t'` the stack grows by the contexts of the scopes that
exceptions have left meanwhile, all of them within what runs. -/
def Tidy (running : Running) (t t' : Trail) : Prop :=
  ∃ made, t'.escapes = t.escapes ++ made ∧
    t'.tlScopes = t.tlScopes ++ made.map Running.process ∧
    ∀ e ∈ made, Within running e

theorem map_process_eq {made : List Running}
    (hmade : ∀ e ∈ made, Within running e) :
    made.map Running.process = List.replicate made.length running.process := by
  rw [← List.map_const]
  exact List.map_congr_left fun e he => (hmade e he).1

namespace Tidy

theorem of_same (hescapes : t'.escapes = t.escapes)
    (hscopes : t'.tlScopes = t.tlScopes) : Tidy running t t' :=
  ⟨[], by rw [hescapes, List.append_nil], by
    rw [hscopes, List.map_nil, List.append_nil], nofun⟩

theorem trans {t'' : Trail} (h : Tidy running t t')
    (h' : Tidy running t' t'') : Tidy running t t'' := by
  obtain ⟨made, hescapes, hscopes, hmade⟩ := h
  obtain ⟨made', hescapes', hscopes', hmade'⟩ := h'
  refine ⟨made ++ made', ?_, ?_, ?_⟩
  · rw [hescapes', hescapes, List.append_assoc]
  · rw [hscopes', hscopes, List.map_append, List.append_assoc]
  · intro e he
    exact (List.mem_append.mp he).elim (hmade e) (hmade' e)

/-- A function that is tidy inside of its scope is tidy around it: the scope
pops one of several equal contexts, or its own one is left as well. -/
theorem leave (h : Tidy running (t.pushed running.process) inside)
    (hleaves : Leaves running inside outside) : Tidy running t outside := by
  obtain ⟨made, hescapes, hscopes, hmade⟩ := h
  have hown := map_process_eq hmade
  rw [Trail.pushed] at hscopes hescapes
  cases hleaves with
  | returned =>
      refine ⟨made, hescapes, ?_, hmade⟩
      rw [Trail.popped, hscopes, hown, List.append_assoc, List.singleton_append,
        ← List.replicate_succ, List.replicate_succ', ← List.append_assoc,
        List.dropLast_concat]
  | threw =>
      have hall : ∀ e ∈ made ++ [running], Within running e := by
        intro e he
        rcases List.mem_append.mp he with he | he
        · exact hmade e he
        · rw [List.mem_singleton.mp he]
          exact ⟨rfl, [], (List.append_nil _).symm, List.forall_mem_nil _⟩
      refine ⟨made ++ [running], ?_, ?_, hall⟩
      · rw [Trail.escaped, hescapes, List.append_assoc]
      · rw [Trail.escaped, hscopes, hown, map_process_eq hall,
          List.length_append, List.append_assoc, List.singleton_append,
          ← List.replicate_succ]
        rfl

/-- A start within what runs.  If the entry leaves anything on the stack, then
the running process has started itself: else its code would not be on top, and
an exception would have left a scope of another process under it. -/
theorem start
    (h : Tidy (running.start process) ((t.calling running).pushed process)
      inside)
    (hleaves : Leaves (running.start process) inside outside)
    (hfine : outside.Calm ∨
      outside.tlScopes.getLast? = some running.process) :
    Tidy running t outside := by
  obtain ⟨made, hescapes, hscopes, hmade⟩ := h.leave hleaves
  have hself : ∀ e ∈ made, process = running.process := by
    intro e he
    rcases hfine with hcalm | htop
    · obtain ⟨hprocess, inner, hwaiting, -⟩ := hmade e he
      have hmem : running.process ∈ e.waiting := by
        rw [hwaiting]
        simp [Running.start]
      have hescape : e ∈ outside.escapes := by
        rw [hescapes]
        exact List.mem_append_right _ he
      exact (hcalm e hescape _ hmem).trans hprocess |>.symm
    · have hlength : made.length ≠ 0 :=
        Nat.ne_of_gt (List.length_pos_of_mem he)
      rw [hscopes, map_process_eq hmade, List.getLast?_append,
        List.getLast?_replicate, if_neg hlength] at htop
      exact Option.some.inj htop
  refine ⟨made, hescapes, hscopes, fun e he => ?_⟩
  obtain ⟨hprocess, inner, hwaiting, hinner⟩ := hmade e he
  have hsame := hself e he
  refine ⟨hprocess.trans hsame, running.process :: inner, ?_, ?_⟩
  · rw [hwaiting, Running.start, List.append_assoc, List.singleton_append]
  · intro p hp
    rcases List.mem_cons.mp hp with rfl | hp
    · rfl
    · exact (hinner p hp).trans hsame

end Tidy

theorem Ran.tidy (h : Ran running t t') (hfine : t'.Calm ∨ t'.AllOnTop) :
    Tidy running t t' := by
  induction h with
  | ended => exact .of_same rfl rfl
  | called _ ih => exact ih hfine
  | started hentry hleaves hnext ihentry ihnext =>
      have houtside := hfine.imp hnext.grows.calm hnext.grows.allOnTop
      have hinside := houtside.imp hleaves.grows.calm hleaves.grows.allOnTop
      refine ((ihentry hinside).start hleaves ?_).trans (ihnext hfine)
      refine hfine.imp hnext.grows.calm fun htop => ?_
      obtain ⟨moment, hfirst⟩ := hnext.first
      exact htop _ hfirst

/-! ## What code runs under -/

/-- Code runs with its own context on top of a stack that holds what exceptions
have left, and then the active scopes. -/
structure Placed (running : Running) (t : Trail) : Prop where
  aligned : t.tlScopes = t.left ++ running.scopes
  top : t.tlScopes.getLast? = some running.process
  active : ∀ s ∈ running.scopes, s ∈ running.waiting ∨ s = running.process

theorem Placed.start (h : Placed running t) (process : ProcessContext) :
    Placed (running.start process) (t.pushed process) where
  aligned := by
    rw [Trail.pushed, h.aligned, List.append_assoc]
    rfl
  top := List.getLast?_concat
  active := by
    intro s hs
    rcases List.mem_append.mp hs with hs | hs
    · exact .inl (List.mem_append.mpr
        ((h.active s hs).imp_right List.mem_singleton.mpr))
    · exact .inr (List.mem_singleton.mp hs)

/-- What exceptions leave on the stack may as well lie under the active scopes:
all of them are scopes of one process. -/
theorem Tidy.placed (h : Tidy running t t') (hcalm : t'.Calm)
    (hplaced : Placed running t) : Placed running t' := by
  obtain ⟨made, hescapes, hscopes, hmade⟩ := h
  have hleft : t'.left = t.left ++ made.map Running.process := by
    rw [Trail.left, hescapes, List.map_append, ← Trail.left]
  refine ⟨?_, ?_, hplaced.active⟩
  · rcases hempty : made with _ | ⟨e, rest⟩
    · rw [hscopes, hleft, hempty, hplaced.aligned]
      simp
    · have hwaiting : ∀ p ∈ running.waiting, p = running.process := by
        have he : e ∈ made := by rw [hempty]; exact List.mem_cons_self
        obtain ⟨hprocess, inner, heq, -⟩ := hmade e he
        have hescape : e ∈ t'.escapes := by
          rw [hescapes]
          exact List.mem_append_right _ he
        intro p hp
        refine (hcalm e hescape p ?_).trans hprocess
        rw [heq]
        exact List.mem_append_left _ hp
      have hactive : running.scopes =
          List.replicate running.scopes.length running.process :=
        List.eq_replicate_of_mem fun s hs =>
          (hplaced.active s hs).elim (hwaiting s) id
      rw [hscopes, hleft, map_process_eq hmade, hplaced.aligned, hactive,
        List.append_assoc, List.append_assoc, List.replicate_append_replicate,
        List.replicate_append_replicate, Nat.add_comm]
  · rw [hscopes, map_process_eq hmade, List.getLast?_append,
      List.getLast?_replicate, hplaced.top]
    split <;> rfl

theorem Placed.observed (h : Placed running t) (moment : Moment) :
    Placed running (t.observed running moment) :=
  ⟨h.aligned, h.top, h.active⟩

theorem Placed.of_mem_observed (h : Placed running t) (moment : Moment) :
    ∀ o ∈ (t.observed running moment).observations,
      o ∈ t.observations ∨ o.OnTop ∧ o.Aligned :=
  forall_mem_observed.mpr ⟨fun _ => .inl, .inr ⟨h.top, h.aligned⟩⟩

/-- As long as no exception leaves a scope while code of another process waits,
all steps are made where they should be. -/
theorem Ran.placed (h : Ran running t t') (hcalm : t'.Calm)
    (hplaced : Placed running t) :
    ∀ o ∈ t'.observations, o ∈ t.observations ∨ o.OnTop ∧ o.Aligned := by
  induction h with
  | ended => exact hplaced.of_mem_observed _
  | called hnext ih =>
      intro o ho
      exact (ih hcalm (hplaced.observed _) o ho).elim
        (hplaced.of_mem_observed _ o) .inr
  | @started _ process _ _ _ _ hentry hleaves hnext ihentry ihnext =>
      have houtside := hnext.grows.calm hcalm
      have hinside := hleaves.grows.calm houtside
      have htidy := (hentry.tidy (.inl hinside)).start hleaves
        (.inl houtside)
      intro o ho
      rcases ihnext hcalm (htidy.placed houtside hplaced) o ho with hold | hnew
      · rw [hleaves.observations_eq] at hold
        rcases ihentry hinside ((hplaced.observed _).start process) o hold with
          hold | hnew
        · exact hplaced.of_mem_observed _ o hold
        · exact .inr hnew
      · exact .inr hnew

theorem Ran.faithful (h : Ran running t t')
    (ht : ∀ o ∈ t.observations, o.Faithful) :
    ∀ o ∈ t'.observations, o.Faithful := by
  have hcalled : ∀ (running : Running) (t : Trail),
      (∀ o ∈ t.observations, o.Faithful) →
      ∀ o ∈ (t.calling running).observations, o.Faithful :=
    fun running t ht => forall_mem_observed.mpr
      ⟨ht, nofun, fun lookup hlookup => (Moment.syscall.inj hlookup).symm⟩
  induction h with
  | ended => exact forall_mem_observed.mpr ⟨ht, nofun, nofun⟩
  | called _ ih => exact ih (hcalled _ _ ht)
  | started _ hleaves _ ihentry ihnext =>
      refine ihnext ?_
      rw [hleaves.observations_eq]
      exact ihentry (hcalled _ _ ht)

/-! ## Turns -/

theorem Turned.grows (h : Turned t t') : Trail.Grows t t' := by
  cases h with
  | idle => exact .refl t
  | booted hrun hleaves =>
      exact (Trail.Grows.pushed ..).trans (hrun.grows.trans hleaves.grows)
  | resumed hrun => exact (Trail.Grows.observed ..).trans hrun.grows

theorem Turned.faithful (h : Turned t t')
    (ht : ∀ o ∈ t.observations, o.Faithful) :
    ∀ o ∈ t'.observations, o.Faithful := by
  cases h with
  | idle => exact ht
  | booted hrun hleaves =>
      rw [hleaves.observations_eq]
      exact hrun.faithful ht
  | resumed hrun =>
      exact hrun.faithful (forall_mem_observed.mpr ⟨ht, fun _ => rfl, nofun⟩)

/-- Between turns: the stack holds what exceptions have left, and all steps were
made where they should be. -/
structure Settled (t : Trail) : Prop where
  scopes : t.tlScopes = t.left
  calm : t.Calm
  placed : ∀ o ∈ t.observations, o.OnTop ∧ o.Aligned

/-- The exceptions and the continuations do no harm, or none was noticed. -/
def Trail.Fine (t : Trail) : Prop := t.Calm ∧ t.ResumesOwn ∨ t.AllOnTop

theorem Trail.Fine.calm_or (h : t.Fine) : t.Calm ∨ t.AllOnTop :=
  h.imp_left And.left

/-- What begins a turn leaves scopes of its own process only. -/
theorem Tidy.settles (h : Tidy running t t') (hturn : running.waiting = [])
    (hscopes : t.tlScopes = t.left) (hcalm : t.Calm) :
    t'.tlScopes = t'.left ∧ t'.Calm := by
  obtain ⟨made, hescapes, hgrown, hmade⟩ := h
  constructor
  · rw [hgrown, Trail.left, hescapes, List.map_append, hscopes, Trail.left]
  · intro e he p hp
    rw [hescapes] at he
    rcases List.mem_append.mp he with he | he
    · exact hcalm e he p hp
    · obtain ⟨hprocess, inner, hwaiting, hinner⟩ := hmade e he
      rw [hwaiting, hturn] at hp
      exact (hinner p hp).trans hprocess.symm

theorem Settled.booted (h : Settled t)
    (hrun : Ran (.boot process) (t.pushed process) inside)
    (hleaves : Leaves (.boot process) inside outside)
    (hfine : outside.Fine) : Settled outside := by
  have hinside := hfine.calm_or.imp hleaves.grows.calm hleaves.grows.allOnTop
  obtain ⟨hscopes, hcalm⟩ :=
    ((hrun.tidy hinside).leave hleaves).settles rfl h.scopes h.calm
  have hplaced : Placed (.boot process) (t.pushed process) :=
    { aligned := congrArg (· ++ [process]) h.scopes
      top := List.getLast?_concat
      active := fun s hs => .inr (List.mem_singleton.mp hs) }
  refine ⟨hscopes, hcalm, fun o ho => ?_⟩
  rw [hleaves.observations_eq] at ho
  exact (hrun.placed (hleaves.grows.calm hcalm) hplaced o ho).elim
    (h.placed o) id

theorem Settled.resumed (h : Settled t)
    (hrun : Ran (.resumed process)
      (t.observed (.resumed process) .resumed) t')
    (hfine : t'.Fine) : Settled t' := by
  have hfirst : (⟨.resumed process, t.left, t.tlScopes, .resumed⟩ :
      Observation) ∈ t'.observations :=
    hrun.grows.observations
      (List.mem_append_right _ (List.mem_singleton_self _))
  have htop : t.tlScopes.getLast? = some process := by
    rcases hfine with ⟨-, hown⟩ | htop
    · rw [h.scopes]
      exact hown _ hfirst rfl
    · exact htop _ hfirst
  obtain ⟨hscopes, hcalm⟩ :=
    (hrun.tidy hfine.calm_or).settles rfl h.scopes h.calm
  have hplaced : Placed (.resumed process) t :=
    ⟨h.scopes.trans (List.append_nil _).symm, htop, nofun⟩
  refine ⟨hscopes, hcalm, fun o ho => ?_⟩
  rcases hrun.placed hcalm (hplaced.observed _) o ho with hold | hnew
  · exact (hplaced.of_mem_observed _ o hold).elim (h.placed o) id
  · exact hnew

theorem Turned.settled (h : Turned t t') (ht : t.Fine → Settled t)
    (hfine : t'.Fine) : Settled t' := by
  have hsettled : Settled t := ht (hfine.imp
    (And.imp h.grows.calm h.grows.resumesOwn) h.grows.allOnTop)
  cases h with
  | idle => exact hsettled
  | booted hrun hleaves => exact hsettled.booted hrun hleaves hfine
  | resumed hrun => exact hsettled.resumed hrun hfine

/-! ## Attribution -/

theorem exec_settled (turns : List KernelTurn)
    (hfine : (kernelMachine.exec .new turns).trail.Fine) :
    Settled (kernelMachine.exec .new turns).trail :=
  exec_trail (I := fun t => t.Fine → Settled t)
    (fun _ => ⟨rfl, nofun, nofun⟩) (fun _ _ => Turned.settled) turns hfine

theorem exec_faithful (turns : List KernelTurn) :
    ∀ o ∈ (kernelMachine.exec .new turns).observations, o.Faithful :=
  exec_trail (I := fun t => ∀ o ∈ t.observations, o.Faithful) nofun
    (fun _ _ => Turned.faithful) turns

/-- A syscall on an aligned stack is made for the calling process exactly if the
second of the scopes, left or active, is one of it. -/
theorem Observation.lookup_eq_iff {o : Observation} (hfaithful : o.Faithful)
    (haligned : o.Aligned) {lookup : Except JsError ProcessDispatcher}
    (hlookup : o.moment = .syscall lookup) :
    lookup = .ok o.running.process.dispatcher ↔
      (o.left ++ o.running.scopes)[1]? = some o.running.process := by
  rw [hfaithful.2 lookup hlookup, ProcessDispatcher.getCurrent_eq_ok_iff,
    ← haligned]
  constructor
  · rintro ⟨context, hcontext, hdispatcher⟩
    rw [hcontext]
    exact congrArg some (congrArg ProcessContext.mk hdispatcher)
  · exact fun hcontext => ⟨_, hcontext, rfl⟩

/-- In every run, whatever the processes do and in whatever order the event loop
runs their continuations: all code runs with its own context on top of the
stack, and all syscalls are made for the process that makes them, exactly if
no exception leaves a scope while code of another process waits, a continuation
is only run when the last scope left by an exception was one of its process,
and at every syscall the second of the scopes, those left by exceptions first
and then the active ones, is one of the calling process. -/
theorem attributed_iff (turns : List KernelTurn) :
    let r := kernelMachine.exec .new turns
    (∀ o ∈ r.observations, o.Attributed) ↔
      (∀ e ∈ r.escapes, ∀ p ∈ e.waiting, p = e.process) ∧
      (∀ o ∈ r.observations, o.moment = .resumed →
        o.left.getLast? = some o.running.process) ∧
      (∀ o ∈ r.observations, ∀ lookup, o.moment = .syscall lookup →
        (o.left ++ o.running.scopes)[1]? = some o.running.process) := by
  intro r
  have hfaithful := exec_faithful turns
  constructor
  · intro hattributed
    have hsettled := exec_settled turns (.inr fun o ho => (hattributed o ho).1)
    refine ⟨hsettled.calm, ?_, ?_⟩
    · intro o ho hresumed
      obtain ⟨htop, haligned⟩ := hsettled.placed o ho
      rw [Observation.Aligned, (hfaithful o ho).1 hresumed,
        List.append_nil] at haligned
      rw [← haligned]
      exact htop
    · intro o ho lookup hlookup
      exact (Observation.lookup_eq_iff (hfaithful o ho)
        (hsettled.placed o ho).2 hlookup).mp
        ((hattributed o ho).2 lookup hlookup)
  · rintro ⟨hcalm, hresumes, hsecond⟩
    have hsettled := exec_settled turns (.inl ⟨hcalm, hresumes⟩)
    intro o ho
    obtain ⟨htop, haligned⟩ := hsettled.placed o ho
    refine ⟨htop, fun lookup hlookup => ?_⟩
    exact (Observation.lookup_eq_iff (hfaithful o ho) haligned hlookup).mpr
      (hsecond o ho lookup hlookup)

/-- A process that is started makes a syscall in its scope, awaits, and makes
another one.  The first one is made for the process that started it, and the
second one for none, on a stack without its context. -/
theorem not_attributed_started :
    let started : ProcessContext := ⟨⟨2, "TODO sp here"⟩⟩
    let entry : UserCode :=
      .processExit 0 fun _ => .await (.processExit 0 fun _ => .ret)
    let r := kernelMachine.exec .new
      [.userboot (.fail (.error "boom")),
        .userboot (.processCreate (.ofLookup fun _ _ _ => (.ok, rootJob))
          ⟨5, ⟨[], 0, 0⟩, 0, 0, 0, 1⟩ fun _ =>
            .processStart (.of started.dispatcher fun table _ => table.next)
              startWithHandle entry fun _ => .ret),
        .resume 0]
    (∃ o ∈ r.observations, o.running.process = started ∧
      o.moment = .syscall (.ok ⟨1, "userboot"⟩)) ∧
    (∃ o ∈ r.observations, o.running.process = started ∧
      o.tlScopes = [⟨⟨0, "userboot"⟩⟩] ∧
      o.moment = .syscall (.error .typeError)) ∧
    ¬ ∀ o ∈ r.observations, o.Attributed := by
  intro started entry r
  have hinside : r.observations[3]? = some
      ⟨⟨started, [⟨⟨1, "userboot"⟩⟩], [⟨⟨1, "userboot"⟩⟩, started]⟩,
        [⟨⟨0, "userboot"⟩⟩],
        [⟨⟨0, "userboot"⟩⟩, ⟨⟨1, "userboot"⟩⟩, started],
        .syscall (.ok ⟨1, "userboot"⟩)⟩ := by decide +kernel
  have hresumed : r.observations[7]? = some
      ⟨.resumed started, [⟨⟨0, "userboot"⟩⟩], [⟨⟨0, "userboot"⟩⟩],
        .syscall (.error .typeError)⟩ := by decide +kernel
  refine ⟨⟨_, List.mem_of_getElem? hinside, rfl, rfl⟩,
    ⟨_, List.mem_of_getElem? hresumed, rfl, rfl, rfl⟩, ?_⟩
  intro hattributed
  have hown := (hattributed _ (List.mem_of_getElem? hresumed)).2 _ rfl
  cases hown

end Fiber.Kernel
