import Fiber.Webview.Conversation
import Mathlib.Tactic.ByContra

/-!
# Delivery

The window of the host is a first-in first-out link from every frame.  So the
calls of a frame are answered in the order in which they were made, and a call
is resolved once the host has handled what was in its window before it.
-/

namespace Fiber.Webview

open Support

variable {origin : String} {frame frame' : Frame} {a : Action} {reply : Reply}

/-- The message that an event posts to the host. -/
def sent (origin : String) (e : FrameEvent) : Option Posted :=
  match e.action, e.reply with
  | .dispatch ns name args, .dispatched call =>
      if origin = targetOrigin then some (.request call ns name args) else none
  | .post data ports, _ => some (.foreign data ports)
  | _, _ => none

/-- The message that the host handles in an event. -/
def handled (e : FrameEvent) : Option Posted :=
  match e.reply with
  | .handled posted _ => some posted
  | _ => none

/-- The window of the host is a link from the frame. -/
def linkStep (origin : String) (e : FrameEvent) : FifoStep Posted :=
  match sent origin e, e.action with
  | some posted, _ => .send posted
  | none, .handle => .receive
  | none, _ => .idle

theorem Transition.link (ht : Transition origin frame a frame' reply)
    {f : Fifo Posted} (hf : f.pending = frame.inbox) :
    let e : FrameEvent := ⟨frame, a, reply, frame'⟩
    (f.apply (linkStep origin e)).pending = frame'.inbox ∧
      (f.apply (linkStep origin e)).taken =
        f.taken ++ (handled e).toList := by
  cases ht with
  | dispatched horigin | lost horigin =>
      simp [linkStep, sent, handled, horigin, Fifo.apply, hf]
  | posted => simp [linkStep, sent, handled, Fifo.apply, hf]
  | noMessage hinbox | answered hinbox | passed hinbox =>
      simp [linkStep, sent, handled, Fifo.apply, hf, hinbox,
        Frame.postMessage]
  | nothing | discarded | resolved =>
      simp [linkStep, sent, handled, Fifo.apply, hf]

theorem exec_link (origin : String) (as : List Action) (frame : Frame)
    (f : Fifo Posted) (hf : f.pending = frame.inbox) :
    let events := (machine origin).trace frame as
    let g := f.run (events.map (linkStep origin))
    g.pending = ((machine origin).exec frame as).inbox ∧
      g.taken = f.taken ++ events.filterMap handled := by
  induction as generalizing frame f with
  | nil => exact ⟨hf, (List.append_nil _).symm⟩
  | cons a as ih =>
      obtain ⟨hpending, htaken⟩ :=
        (step_transition origin frame a).link hf
      obtain ⟨hpending', htaken'⟩ := ih _ _ hpending
      refine ⟨hpending', htaken'.trans ?_⟩
      rw [htaken, List.append_assoc, List.filterMap_eq_flatMap_toList,
        List.filterMap_eq_flatMap_toList, Machine.trace_cons,
        List.flatMap_cons]
      rfl

theorem sends_map_linkStep (origin : String) (events : List FrameEvent) :
    Fifo.sends (events.map (linkStep origin)) =
      events.filterMap (sent origin) := by
  rw [Fifo.sends, List.filterMap_map]
  congr 1
  funext e
  simp only [Function.comp, linkStep]
  rcases sent origin e with _ | posted
  · cases e.action <;> rfl
  · rfl

/-- The messages of a frame that the host has handled, and then those in its
window, are all that the frame has posted. -/
theorem sent_eq (origin : String) (as : List Action) :
    let events := (machine origin).trace Frame.start as
    events.filterMap (sent origin) =
      events.filterMap handled ++
        ((machine origin).exec Frame.start as).inbox := by
  intro events
  let f : Fifo Posted := (Fifo.start []).run (events.map (linkStep origin))
  obtain ⟨hpending, htaken⟩ :=
    exec_link origin as Frame.start (Fifo.start []) rfl
  have hsent : f.sent = events.filterMap (sent origin) :=
    (Fifo.sent_run ..).trans (sends_map_linkStep origin events)
  rw [← hsent, ← f.balanced, htaken, hpending]
  rfl

/-! ## The order of the answers -/

/-- The call that the host answers in an event. -/
def answeredCall (e : FrameEvent) : Option ℕ :=
  match e.reply with
  | .handled _ (.answered (.call call) _) => some call
  | _ => none

/-- A request is answered, at the port of its call, when it is handled. -/
theorem Transition.answeredCall_eq
    (ht : Transition origin frame a frame' reply) :
    answeredCall ⟨frame, a, reply, frame'⟩ =
      (handled ⟨frame, a, reply, frame'⟩).bind Posted.call? := by
  cases ht with
  | @passed data ports inbox handled hinbox hhandled =>
      rcases handled with _ | ⟨call | _, envelope⟩ | e
      · rfl
      · exact absurd rfl (hhandled call envelope)
      · rfl
      · rfl
  | _ => rfl

theorem answeredCalls_eq (origin : String) (as : List Action)
    (frame : Frame) :
    ((machine origin).trace frame as).filterMap answeredCall =
      (((machine origin).trace frame as).filterMap handled).filterMap
        Posted.call? := by
  rw [List.filterMap_filterMap]
  refine List.filterMap_congr fun e he => ?_
  obtain ⟨front, a, rest, rfl, rfl⟩ := (machine origin).mem_trace_iff.mp he
  exact (step_transition origin _ a).answeredCall_eq

/-- The call that the dispatcher makes in an event. -/
def madeCall (e : FrameEvent) : Option ℕ :=
  match e.reply with
  | .dispatched call => some call
  | _ => none

theorem Transition.madeCall_eq
    (ht : Transition origin frame a frame' reply) :
    (sent origin ⟨frame, a, reply, frame'⟩).bind Posted.call? =
      if origin = targetOrigin then madeCall ⟨frame, a, reply, frame'⟩
      else none := by
  cases ht with
  | dispatched horigin | lost horigin =>
      simp [sent, madeCall, horigin, Posted.call?]
  | _ => simp [sent, madeCall]

theorem sentCalls_eq (origin : String) (as : List Action) (frame : Frame) :
    (((machine origin).trace frame as).filterMap (sent origin)).filterMap
        Posted.call? =
      if origin = targetOrigin then
        ((machine origin).trace frame as).filterMap madeCall
      else [] := by
  have hevent : ∀ e ∈ (machine origin).trace frame as,
      (sent origin e).bind Posted.call? =
        if origin = targetOrigin then madeCall e else none := by
    intro e he
    obtain ⟨front, a, rest, rfl, rfl⟩ := (machine origin).mem_trace_iff.mp he
    exact (step_transition origin _ a).madeCall_eq
  rw [List.filterMap_filterMap, List.filterMap_congr hevent]
  by_cases horigin : origin = targetOrigin
  · simp only [if_pos horigin]
  · simp only [if_neg horigin, List.filterMap_none]

theorem Transition.made (ht : Transition origin frame a frame' reply) :
    ∃ k, frame'.calls.next = frame.calls.next + k ∧
      (madeCall ⟨frame, a, reply, frame'⟩).toList =
        List.range' frame.calls.next k := by
  cases ht with
  | dispatched | lost => exact ⟨1, rfl, rfl⟩
  | _ => exact ⟨0, rfl, rfl⟩

/-- The calls are numbered in the order in which they are made. -/
theorem madeCalls_eq (origin : String) (as : List Action) (frame : Frame) :
    ∃ k, ((machine origin).exec frame as).calls.next =
        frame.calls.next + k ∧
      ((machine origin).trace frame as).filterMap madeCall =
        List.range' frame.calls.next k := by
  induction as generalizing frame with
  | nil => exact ⟨0, rfl, rfl⟩
  | cons a as ih =>
      obtain ⟨j, hstep, hmade⟩ := (step_transition origin frame a).made
      obtain ⟨k, hnext, hcalls⟩ := ih (frame.step origin a).1
      refine ⟨j + k, hnext.trans (by rw [hstep, Nat.add_assoc]), ?_⟩
      rw [← List.range'_append_1, ← hmade, ← hstep, ← hcalls,
        Machine.trace_cons, List.filterMap_eq_flatMap_toList,
        List.filterMap_eq_flatMap_toList, List.flatMap_cons]
      rfl

/-- Per frame, and however the frames interleave, the host handles the
messages in the order in which they were posted, each once, and answers the
calls in the order in which they were made: the answered ones and those whose
request is in the window are all that were made. -/
theorem page_answers_in_order (origin : String) (as : List (ℕ × Action))
    (i : ℕ) :
    let events :=
      Machine.ownEvents i ((page origin).trace (fun _ => Frame.start) as)
    let frame := (page origin).exec (fun _ => Frame.start) as i
    events.filterMap (sent origin) =
        events.filterMap handled ++ frame.inbox ∧
      events.filterMap answeredCall ++ frame.inbox.filterMap Posted.call? =
        if origin = targetOrigin then List.range frame.calls.next else [] := by
  intro events frame
  have hevents : events =
      (machine origin).trace Frame.start (Machine.own i as) :=
    Machine.ownEvents_trace_parallel _ as i
  have hframe : frame = (machine origin).exec Frame.start (Machine.own i as) :=
    page_exec_eq origin as i
  have hsent := sent_eq origin (Machine.own i as)
  obtain ⟨k, hnext, hmade⟩ :=
    madeCalls_eq origin (Machine.own i as) Frame.start
  rw [hevents, hframe]
  refine ⟨hsent, ?_⟩
  rw [answeredCalls_eq, ← List.filterMap_append, ← hsent, sentCalls_eq, hmade,
    hnext, List.range_eq_range']
  simp only [Frame.start, Store.next_empty, Nat.zero_add]

/-! ## No call is lost -/

/-- How often the host takes a message of the frame. -/
def turns (as : List Action) : ℕ :=
  as.count .handle

theorem linkStep_eq_receive_iff (e : FrameEvent) :
    linkStep origin e = .receive ↔ e.action = .handle := by
  obtain ⟨before, a, reply, after⟩ := e
  cases a with
  | dispatch ns name args =>
      cases reply with
      | dispatched call =>
          by_cases horigin : origin = targetOrigin <;>
            simp [linkStep, sent, horigin]
      | _ => simp [linkStep, sent]
  | _ => simp [linkStep, sent]

theorem receives_map_linkStep (origin : String) (as : List Action)
    (frame : Frame) :
    Fifo.receives (((machine origin).trace frame as).map (linkStep origin)) =
      turns as := by
  rw [turns, List.count, Fifo.receives, List.countP_map]
  conv_rhs =>
    rw [← (machine origin).map_action_trace frame as, List.countP_map]
  refine List.countP_congr fun e _ => ?_
  rw [Function.comp, Function.comp, beq_iff_eq, ← linkStep_eq_receive_iff]
  cases linkStep origin e <;> simp

variable {call : ℕ}

theorem allocated_of_progress {n : ℕ} (h : n + 1 ≤ frame.progress call) :
    frame.calls.Allocated call := by
  by_contra hfree
  rw [Frame.progress, if_neg hfree] at h
  exact Nat.not_succ_le_zero n h

/-- With three phases behind it, a call is resolved with the answer. -/
theorem Orderly.resolutions_eq_of_progress (h : Orderly origin frame)
    (hprogress : 3 ≤ frame.progress call) :
    (frame.calls.get call).resolutions = [acknowledgement] := by
  have hlength := h.total_le_one call
  rw [progress_of_allocated (allocated_of_progress hprogress),
    Call.phases] at hprogress
  obtain ⟨envelope, henvelope⟩ := List.length_eq_one_iff.mp
    (show (frame.calls.get call).resolutions.length = 1 by omega)
  rw [henvelope, (h call).resolutions_eq envelope
    (henvelope ▸ List.mem_singleton_self envelope)]

/-- With two phases behind it, a call is resolved by the next delivery. -/
theorem Orderly.progress_deliver (h : Orderly origin frame)
    (hprogress : 2 ≤ frame.progress call) :
    3 ≤ (frame.step origin (.deliver call)).1.progress call := by
  have ht := deliver_transition origin frame call
  generalize (frame.step origin (.deliver call)).1 = frame' at ht ⊢
  generalize (frame.step origin (.deliver call)).2 = reply at ht
  cases ht with
  | nothing hincoming =>
      have hlength := h.total_le_one call
      have hallocated := allocated_of_progress hprogress
      rw [progress_of_allocated hallocated, Call.phases, hincoming,
        List.length_nil] at hprogress ⊢
      omega
  | discarded hincoming hclosed =>
      exact absurd (h.of_incoming hincoming).2.2.2.2
        ((h _).closed_iff.mp hclosed)
  | resolved hincoming hclosed =>
      rw [progress_set frame.inbox (h.of_incoming hincoming).1.1,
        Function.update_self, Call.phases]
      simp only [List.length_append, List.length_singleton]
      omega

theorem said_of_answeredCall {e : FrameEvent} (h : answeredCall e = some call) :
    ∃ envelope, said e = some (call, .answered envelope) := by
  obtain ⟨before, a, reply, after⟩ := e
  cases reply with
  | handled posted handled =>
      rcases handled with _ | ⟨_ | _, envelope⟩ | e
      case answered.call =>
        obtain rfl := Option.some.inj h
        exact ⟨envelope, rfl⟩
      all_goals cases h
  | _ => cases h

theorem two_le_progress_of_answeredCall (h : Orderly origin frame)
    {as : List Action} {e : FrameEvent}
    (he : e ∈ (machine origin).trace frame as)
    (hanswered : answeredCall e = some call) :
    2 ≤ ((machine origin).exec frame as).progress call := by
  obtain ⟨envelope, hsaid⟩ := said_of_answeredCall hanswered
  have hphase : phaseOf said call e = some (.answered envelope) := by
    rw [phaseOf, hsaid]
    exact if_pos rfl
  have hmem : Phase.answered envelope ∈
      conversation said call ((machine origin).trace frame as) :=
    List.mem_filterMap.mpr ⟨e, he, hphase⟩
  exact (scripted origin).lt_progress_of_mem (n := 1) h hmem
    (by simp [script])

/-- A call that is made has been answered after as many turns as there were
messages in the window. -/
theorem two_le_progress (h : Orderly origin frame)
    (hmade : frame.Made origin call) {as : List Action}
    (hturns : frame.inbox.length ≤ turns as) :
    2 ≤ ((machine origin).exec frame as).progress call := by
  by_cases hrequests : requests frame.inbox call = 0
  · refine Nat.le_trans ?_ ((scripted origin).progress_le h as call)
    have hconserved := (h call).conserved
    rw [if_pos hmade, hrequests] at hconserved
    rw [progress_of_allocated hmade.1, Call.phases]
    omega
  · obtain ⟨posted, hposted, hcall⟩ :=
      List.countP_pos_iff.mp (Nat.pos_of_ne_zero hrequests)
    obtain ⟨-, htaken⟩ :=
      exec_link origin as frame (Fifo.start frame.inbox) rfl
    have hsent := (Fifo.start frame.inbox).sent_prefix_taken_run
      (((machine origin).trace frame as).map (linkStep origin))
      (by rw [receives_map_linkStep]; exact hturns)
    rw [htaken] at hsent
    obtain ⟨e, he, hhandled⟩ :=
      List.mem_filterMap.mp (hsent.subset hposted)
    obtain ⟨front, a, rest, hsplit, rfl⟩ :=
      (machine origin).mem_trace_iff.mp he
    have ht := step_transition origin ((machine origin).exec frame front) a
    have hanswered := ht.answeredCall_eq.trans
      (congrArg (Option.bind · Posted.call?) hhandled)
    exact two_le_progress_of_answeredCall h he
      (hanswered.trans (of_decide_eq_true hcall))

/-- Under a parent with the right origin no call is lost.  A call of a frame
is resolved, once and with the answer of the host, when the host has taken as
many messages of the frame as were in its window and a message has been
delivered at the channel after that, whatever else happens on the page before,
in between and later. -/
theorem page_call_resolved (as bs cs : List (ℕ × Action)) (i call : ℕ)
    (hmade : ((page targetOrigin).exec (fun _ => Frame.start) as i
      ).calls.Allocated call)
    (hturns : ((page targetOrigin).exec (fun _ => Frame.start) as i
      ).inbox.length ≤ turns (Machine.own i bs)) :
    (((page targetOrigin).exec (fun _ => Frame.start)
        (as ++ bs ++ (i, .deliver call) :: cs) i).calls.get call
      ).resolutions = [acknowledgement] := by
  rw [page_exec_eq] at hmade hturns ⊢
  have horderly := orderly_exec targetOrigin (Machine.own i as)
  have hanswered := two_le_progress horderly ⟨hmade, rfl⟩ hturns
  rw [Machine.own_append, Machine.own_append, Machine.own_cons_self,
    Machine.exec_append, Machine.exec_append, Machine.exec_cons]
  have hbefore := (scripted targetOrigin).preserved.exec horderly
    (Machine.own i bs)
  have hafter := (scripted targetOrigin).preserved _ (.deliver call) hbefore
  apply ((scripted targetOrigin).preserved.exec hafter
    (Machine.own i cs)).resolutions_eq_of_progress
  exact Nat.le_trans (hbefore.progress_deliver hanswered)
    ((scripted targetOrigin).progress_le hafter (Machine.own i cs) call)

/-- Two frames make a call each, and the host answers the later one first. -/
theorem page_call_resolved_interleaved :
    (((page targetOrigin).exec (fun _ => Frame.start)
        ([(0, .dispatch "fx" "channel_create" []),
            (1, .dispatch "fx" "channel_create" [])] ++
          [(1, .handle), (0, .handle)] ++
          (0, .deliver 0) :: [(1, .deliver 0)]) 0).calls.get 0
      ).resolutions = [acknowledgement] :=
  page_call_resolved _ _ _ 0 0 (by decide) (by decide)

end Fiber.Webview
