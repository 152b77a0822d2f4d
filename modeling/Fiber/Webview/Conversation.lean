import Fiber.Support.Fifo
import Fiber.Support.Script
import Fiber.Webview.Syscall

/-!
# The conversation about a call

What is said about a call follows one script: the dispatcher asks, the host
answers at the port of the call, and the promise is resolved with the answer.
Every call is in one place at a time: its request is in the window of the host,
its answer is on the way back, or its promise is resolved.  Messages are
handled in the order they were posted, so no call waits forever.
-/

namespace Fiber.Webview

open Support

/-- What is said about a call. -/
inductive Phase
  | asked
  | answered (envelope : Envelope)
  | resolved (envelope : Envelope)
  deriving DecidableEq

def script : List Phase :=
  [.asked, .answered acknowledgement, .resolved acknowledgement]

abbrev FrameEvent := Event Frame Action Reply

/-- The call that an event belongs to, and the phase that it is. -/
def said (e : FrameEvent) : Option (ℕ × Phase) :=
  match e.action, e.reply with
  | _, .dispatched call => some (call, .asked)
  | _, .handled _ (.answered (.call call) envelope) =>
      some (call, .answered envelope)
  | .deliver call, .resolved envelope => some (call, .resolved envelope)
  | _, _ => none

/-- How many of the messages to the host are the request of a call. -/
def requests (inbox : List Posted) (call : ℕ) : ℕ :=
  inbox.countP fun posted => posted.call? = some call

/-- How many phases a call has behind it. -/
def Call.phases (c : Call) : ℕ :=
  1 + c.incoming.length + 2 * c.resolutions.length

namespace Frame

def progress (frame : Frame) (call : ℕ) : ℕ :=
  if frame.calls.Allocated call then (frame.calls.get call).phases else 0

/-- A call is expected to be somewhere if it was made under a parent that gets
its request. -/
def Made (origin : String) (frame : Frame) (call : ℕ) : Prop :=
  frame.calls.Allocated call ∧ origin = targetOrigin

instance (origin : String) (frame : Frame) (call : ℕ) :
    Decidable (frame.Made origin call) :=
  inferInstanceAs (Decidable (_ ∧ _))

end Frame

/-- A call of which `requests` requests are on their way is in `places` places,
and all that has come back is the acknowledgement. -/
structure Call.Orderly (c : Call) (requests places : ℕ) : Prop where
  conserved : requests + c.incoming.length + c.resolutions.length = places
  incoming_eq : ∀ envelope ∈ c.incoming, envelope = acknowledgement
  resolutions_eq : ∀ envelope ∈ c.resolutions, envelope = acknowledgement
  closed_iff : c.closed = true ↔ c.resolutions ≠ []

/-- Every call that is made is in one place: its request, its answer and its
resolutions are one in all. -/
def Orderly (origin : String) (frame : Frame) : Prop :=
  ∀ call, (frame.calls.get call).Orderly (requests frame.inbox call)
    (if frame.Made origin call then 1 else 0)

theorem Call.orderly_blank (requests : ℕ) :
    Call.Orderly {} requests requests where
  conserved := rfl
  incoming_eq _ h := nomatch h
  resolutions_eq _ h := nomatch h
  closed_iff := by simp

theorem Call.Orderly.answer {c : Call} {requests places : ℕ}
    (h : c.Orderly (requests + 1) places) :
    Call.Orderly { c with incoming := c.incoming ++ [acknowledgement] }
      requests places where
  conserved := by
    have hconserved := h.conserved
    simp only [List.length_append, List.length_singleton]
    omega
  incoming_eq envelope henvelope := by
    rcases List.mem_append.mp henvelope with hbefore | hnew
    · exact h.incoming_eq _ hbefore
    · exact List.mem_singleton.mp hnew
  resolutions_eq := h.resolutions_eq
  closed_iff := h.closed_iff

theorem Call.Orderly.resolve {c : Call} {requests places : ℕ}
    (h : c.Orderly requests places) {envelope : Envelope}
    {incoming : List Envelope} (hincoming : c.incoming = envelope :: incoming) :
    Call.Orderly ⟨incoming, true, c.resolutions ++ [envelope]⟩
      requests places where
  conserved := by
    have hconserved := h.conserved
    rw [hincoming, List.length_cons] at hconserved
    simp only [List.length_append, List.length_singleton]
    omega
  incoming_eq e he :=
    h.incoming_eq e (hincoming ▸ List.mem_cons_of_mem _ he)
  resolutions_eq e he := by
    rcases List.mem_append.mp he with hbefore | hnew
    · exact h.resolutions_eq _ hbefore
    · obtain rfl := List.mem_singleton.mp hnew
      exact h.incoming_eq _ (hincoming ▸ List.mem_cons_self)
  closed_iff := by simp

theorem orderly_start (origin : String) : Orderly origin Frame.start := by
  intro call
  rw [if_neg fun h => Nat.not_lt_zero call h.1]
  exact Call.orderly_blank 0

variable {origin : String} {frame : Frame} {call : ℕ}

theorem Orderly.total_le_one (h : Orderly origin frame) (call : ℕ) :
    requests frame.inbox call + (frame.calls.get call).incoming.length +
      (frame.calls.get call).resolutions.length ≤ 1 := by
  rw [(h call).conserved]
  split <;> decide

/-- Nothing is known of a call that is not made. -/
theorem Orderly.of_not_made (h : Orderly origin frame)
    (hmade : ¬ frame.Made origin call) :
    requests frame.inbox call = 0 ∧ (frame.calls.get call).incoming = [] ∧
      (frame.calls.get call).resolutions = [] := by
  have hconserved := (h call).conserved
  rw [if_neg hmade] at hconserved
  exact ⟨by omega, List.eq_nil_of_length_eq_zero (by omega),
    List.eq_nil_of_length_eq_zero (by omega)⟩

/-- When something arrives for a call, nothing else is on the way for it, and
its promise is pending. -/
theorem Orderly.of_incoming (h : Orderly origin frame) {envelope : Envelope}
    {incoming : List Envelope}
    (hincoming : (frame.calls.get call).incoming = envelope :: incoming) :
    frame.Made origin call ∧ envelope = acknowledgement ∧ incoming = [] ∧
      requests frame.inbox call = 0 ∧ (frame.calls.get call).resolutions = [] := by
  by_cases hmade : frame.Made origin call
  · have hconserved := (h call).conserved
    rw [if_pos hmade, hincoming, List.length_cons] at hconserved
    exact ⟨hmade, (h call).incoming_eq _ (hincoming ▸ List.mem_cons_self),
      List.eq_nil_of_length_eq_zero (by omega), by omega,
      List.eq_nil_of_length_eq_zero (by omega)⟩
  · rw [(h.of_not_made hmade).2.1] at hincoming
    cases hincoming

/-- When the host gets to a request, nothing has been said about its call yet
but that. -/
theorem Orderly.of_request (h : Orderly origin frame)
    (hrequests : 0 < requests frame.inbox call) :
    frame.Made origin call ∧ requests frame.inbox call = 1 ∧
      (frame.calls.get call).incoming = [] ∧
      (frame.calls.get call).resolutions = [] := by
  by_cases hmade : frame.Made origin call
  · have hconserved := (h call).conserved
    rw [if_pos hmade] at hconserved
    exact ⟨hmade, by omega, List.eq_nil_of_length_eq_zero (by omega),
      List.eq_nil_of_length_eq_zero (by omega)⟩
  · have hnone := (h.of_not_made hmade).1
    omega

/-! ## The requests that are on their way -/

theorem requests_concat (inbox : List Posted) (posted : Posted) (call : ℕ) :
    requests (inbox ++ [posted]) call =
      requests inbox call + if posted.call? = some call then 1 else 0 := by
  rw [requests, List.countP_append, List.countP_singleton]
  simp only [decide_eq_true_eq]
  rfl

theorem requests_cons (posted : Posted) (inbox : List Posted) (call : ℕ) :
    requests (posted :: inbox) call =
      requests inbox call + if posted.call? = some call then 1 else 0 := by
  rw [requests, List.countP_cons]
  simp only [decide_eq_true_eq]
  rfl

@[simp] theorem call?_request_eq_some (call' : ℕ) (ns name : String)
    (args : List SdkOld.Arg) :
    (Posted.request call' ns name args).call? = some call ↔ call' = call :=
  Option.some_inj

@[simp] theorem call?_foreign (data : Data) (ports : List ℕ) :
    (Posted.foreign data ports).call? = none := rfl

theorem made_alloc (inbox : List Posted) (h : call ≠ frame.calls.next) :
    Frame.Made origin ⟨frame.calls.alloc {}, inbox⟩ call ↔
      frame.Made origin call := by
  rw [Frame.Made, Frame.Made, Store.allocated_alloc]
  simp only [h, or_false]

theorem not_made_next : ¬ frame.Made origin frame.calls.next :=
  fun h => frame.calls.not_allocated_next h.1

variable {a : Action} {frame' : Frame} {reply : Reply}

/-- One action keeps every call in its one place. -/
theorem Transition.orderly (ht : Transition origin frame a frame' reply)
    (h : Orderly origin frame) : Orderly origin frame' := by
  intro call
  have hcall := h call
  cases ht with
  | dispatched horigin =>
      simp only [requests_concat, call?_request_eq_some]
      by_cases heq : call = frame.calls.next
      · subst call
        rw [Store.get_alloc_self, (h.of_not_made not_made_next).1,
          if_pos (by rfl), if_pos ⟨Nat.lt_succ_self _, horigin⟩]
        exact Call.orderly_blank 1
      · rw [Store.get_alloc_of_ne _ heq, if_neg (Ne.symm heq), Nat.add_zero]
        simpa only [made_alloc _ heq] using hcall
  | lost horigin =>
      by_cases heq : call = frame.calls.next
      · subst call
        rw [Store.get_alloc_self, (h.of_not_made not_made_next).1,
          if_neg fun hmade => horigin hmade.2]
        exact Call.orderly_blank 0
      · rw [Store.get_alloc_of_ne _ heq]
        simpa only [made_alloc _ heq] using hcall
  | posted =>
      simp only [requests_concat]
      exact hcall
  | noMessage | nothing => exact hcall
  | @answered asked ns name args inbox hinbox =>
      rw [hinbox, requests_cons] at hcall
      simp only [call?_request_eq_some] at hcall
      simp only [Frame.postMessage]
      by_cases heq : call = asked
      · subst call
        rw [if_pos rfl] at hcall
        rw [Store.get_set_self]
        exact hcall.answer
      · rw [if_neg (Ne.symm heq)] at hcall
        rw [Store.get_set_of_ne _ heq]
        exact hcall
  | @passed data ports inbox handled hinbox =>
      rw [hinbox, requests_cons] at hcall
      exact hcall
  | discarded hincoming hclosed =>
      exact absurd (h.of_incoming hincoming).2.2.2.2
        ((h _).closed_iff.mp hclosed)
  | @resolved resolved envelope incoming hincoming hclosed =>
      by_cases heq : call = resolved
      · subst call
        rw [Store.get_set_self]
        exact hcall.resolve hincoming
      · rw [Store.get_set_of_ne _ heq]
        exact hcall

/-! ## The script -/

theorem progress_of_allocated (h : frame.calls.Allocated call) :
    frame.progress call = (frame.calls.get call).phases :=
  if_pos h

theorem progress_next : frame.progress frame.calls.next = 0 :=
  if_neg frame.calls.not_allocated_next

/-- The progress of the calls after the object of one of them is replaced. -/
theorem progress_set (inbox : List Posted) (h : frame.calls.Allocated call)
    (c : Call) :
    Frame.progress ⟨frame.calls.set call c, inbox⟩ =
      Function.update frame.progress call c.phases := by
  funext q
  by_cases hq : q = call
  · subst q
    rw [Function.update_self]
    exact (if_pos h).trans (congrArg Call.phases (Store.get_set_self ..))
  · rw [Function.update_of_ne hq, Frame.progress, Store.get_set_of_ne _ hq]
    rfl

theorem progress_alloc (inbox : List Posted) :
    Frame.progress ⟨frame.calls.alloc {}, inbox⟩ =
      Function.update frame.progress frame.calls.next 1 := by
  funext q
  by_cases hq : q = frame.calls.next
  · subst q
    rw [Function.update_self]
    exact (if_pos (Nat.lt_succ_self _)).trans
      (congrArg Call.phases (Store.get_alloc_self ..))
  · rw [Function.update_of_ne hq, Frame.progress, Frame.progress,
      Store.get_alloc_of_ne _ hq]
    simp only [Store.allocated_alloc, hq, or_false]

theorem said_passed (data : Data) (ports : List ℕ) {handled : Handled}
    (h : ∀ call envelope, handled ≠ .answered (.call call) envelope) :
    said ⟨frame, .handle, .handled (.foreign data ports) handled, frame'⟩ =
      none := by
  rcases handled with _ | ⟨call | _, envelope⟩ | e
  · rfl
  · exact absurd rfl (h call envelope)
  · rfl
  · rfl

/-- One action says the next phase of one call, or nothing. -/
theorem Transition.advances (ht : Transition origin frame a frame' reply)
    (h : Orderly origin frame) :
    Advances script frame.progress (said ⟨frame, a, reply, frame'⟩)
      frame'.progress := by
  cases ht with
  | dispatched | lost =>
      rw [progress_alloc]
      exact .next_of_eq progress_next rfl
  | posted => exact .silent
  | noMessage | nothing => exact .silent
  | @answered asked ns name args inbox hinbox =>
      have hrequests : 0 < requests frame.inbox asked := by
        rw [hinbox, requests_cons, if_pos (call?_request_eq_some ..|>.mpr rfl)]
        exact Nat.succ_pos _
      obtain ⟨hmade, -, hincoming, hresolutions⟩ := h.of_request hrequests
      have hasked : frame.progress asked = 1 := by
        rw [progress_of_allocated hmade.1, Call.phases, hincoming, hresolutions]
        rfl
      simp only [Frame.postMessage]
      rw [progress_set inbox hmade.1]
      simp only [Call.phases, hincoming, hresolutions]
      exact .next_of_eq hasked rfl
  | @passed data ports inbox handled hinbox hhandled =>
      rw [said_passed data ports hhandled]
      exact .silent
  | discarded hincoming hclosed =>
      exact absurd (h.of_incoming hincoming).2.2.2.2
        ((h _).closed_iff.mp hclosed)
  | @resolved resolved envelope incoming hincoming hclosed =>
      obtain ⟨hmade, rfl, rfl, -, hresolutions⟩ := h.of_incoming hincoming
      have hanswered : frame.progress resolved = 2 := by
        rw [progress_of_allocated hmade.1, Call.phases, hincoming, hresolutions]
        rfl
      rw [progress_set frame.inbox hmade.1]
      simp only [Call.phases, hresolutions]
      exact .next_of_eq hanswered rfl

/-- A frame follows the script. -/
theorem scripted (origin : String) :
    Scripted (machine origin) (Orderly origin) script said
      Frame.progress where
  preserved frame a := (step_transition origin frame a).orderly
  advances a := (step_transition origin _ a).advances

/-! ## The page -/

theorem orderly_exec (origin : String) (as : List Action) :
    Orderly origin ((machine origin).exec Frame.start as) :=
  (scripted origin).preserved.exec (orderly_start origin) as

/-- The frame `i` of the page after a run. -/
theorem page_exec_eq (origin : String) (as : List (ℕ × Action)) (i : ℕ) :
    (page origin).exec (fun _ => Frame.start) as i =
      (machine origin).exec Frame.start (Machine.own i as) :=
  Machine.exec_parallel _ as i

/-- However the frames, their other messages and the host interleave, the
history of a call is a beginning of the script; and the call is in one place,
which is what its progress says. -/
theorem page_conversation_eq (origin : String) (as : List (ℕ × Action))
    (i call : ℕ) :
    let events := (page origin).trace (fun _ => Frame.start) as
    let frame := (page origin).exec (fun _ => Frame.start) as i
    conversation said call (Machine.ownEvents i events) =
        script.take (frame.progress call) ∧
      requests frame.inbox call + (frame.calls.get call).incoming.length +
          (frame.calls.get call).resolutions.length =
        if frame.Made origin call then 1 else 0 := by
  intro events frame
  have hframe : frame = (machine origin).exec Frame.start (Machine.own i as) :=
    page_exec_eq origin as i
  constructor
  · have hevents : Machine.ownEvents i events =
        (machine origin).trace Frame.start (Machine.own i as) :=
      Machine.ownEvents_trace_parallel _ as i
    rw [hevents, hframe]
    exact (scripted origin).conversation_eq (orderly_start origin) rfl _
  · rw [hframe]
    exact (orderly_exec origin _ call).conserved

end Fiber.Webview
