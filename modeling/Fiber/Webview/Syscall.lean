import Fiber.SdkOld.System
import Fiber.Support.Parallel
import Fiber.Support.Store

/-!
# Syscalls from frames

A component in a frame of the host page has no kernel.  Its dispatcher makes a
message channel for every syscall, posts the request to the parent window
together with one end of the channel, and waits for the first message at the
other end.  The host handles the messages of its window one after the other,
and answers at the port that came with a request.

The window also gets messages that the dispatcher has not posted.  The messages
of one frame stay in order.  A message that is posted to another origin than
the one of the parent is dropped.
-/

namespace Fiber.Webview

open Support

/-- The property `data` of what is posted. -/
inductive Payload
  | syscall (ns name : String) (args : List SdkOld.Arg)
  | status (status : ℤ)
  | other (value : ℕ)
  deriving DecidableEq

/-- What is posted, with its property `type`; `none` is every value but a
string. -/
structure Envelope where
  type : Option String
  data : Payload
  deriving DecidableEq

/-- The data of a message event.  Destructuring throws on `null` and on
`undefined`; on every other value it reads properties. -/
inductive Data
  | nullish
  | envelope (envelope : Envelope)
  deriving DecidableEq

/-- A port that the host gets: the end of the channel of a call, or any other
one. -/
inductive Port
  | call (call : ℕ)
  | foreign (port : ℕ)
  deriving DecidableEq

/-- A message on its way to the window of the host. -/
inductive Posted
  | request (call : ℕ) (ns name : String) (args : List SdkOld.Arg)
  | foreign (data : Data) (ports : List ℕ)
  deriving DecidableEq

namespace Posted

def data : Posted → Data
  | .request _ ns name args =>
      .envelope ⟨some "__fiber_syscall", .syscall ns name args⟩
  | .foreign data _ => data

/-- The ports that were transferred. -/
def ports : Posted → List Port
  | .request call _ _ _ => [.call call]
  | .foreign _ ports => ports.map .foreign

/-- The call that a message is the request of. -/
def call? : Posted → Option ℕ
  | .request call _ _ _ => some call
  | .foreign _ _ => none

end Posted

/-! ## The host -/

/-- What the host answers, whatever the syscall. -/
def acknowledgement : Envelope := ⟨some "__fiber_syscall_status", .status 0⟩

/-- How the handler ends. -/
inductive Handled
  | ignored
  | answered (port : Port) (envelope : Envelope)
  | threw (e : JsError)
  deriving DecidableEq

def handleSyscallEvent (data : Data) (ports : List Port) : Handled :=
  match data with
  | .nullish => .threw .typeError
  | .envelope ⟨type, _⟩ =>
      if type = some "__fiber_syscall" then
        match ports[0]? with
        | some port => .answered port acknowledgement
        | none => .threw .typeError
      else .ignored

/-! ## A frame -/

/-- One call of the dispatcher: what is on its way to `port1`, whether that
port is closed, and what `resolve` was called with. -/
structure Call where
  incoming : List Envelope := []
  closed : Bool := false
  resolutions : List Envelope := []
  deriving DecidableEq

/-- A frame, with its messages on their way to the host. -/
structure Frame where
  calls : Store Call
  inbox : List Posted

def Frame.start : Frame := ⟨Store.empty {}, []⟩

/-- The origin that the dispatcher posts to. -/
def targetOrigin : String := "http://localhost:1234"

/-- What happens in a frame: its component makes a syscall or posts another
message, the host takes a message, or a message arrives at the channel of a
call. -/
inductive Action
  | dispatch (ns name : String) (args : List SdkOld.Arg)
  | post (data : Data) (ports : List ℕ)
  | handle
  | deliver (call : ℕ)
  deriving DecidableEq

/-- What an action comes to. -/
inductive Reply
  | dispatched (call : ℕ)
  | posted
  | idle
  | handled (posted : Posted) (handled : Handled)
  | resolved (envelope : Envelope)
  | discarded
  deriving DecidableEq

namespace Frame

/-- `iframeDispatcher(namespace, name, args)`, under a parent of some origin. -/
def dispatch (origin : String) (frame : Frame) (ns name : String)
    (args : List SdkOld.Arg) : Frame × Reply :=
  let call := frame.calls.next
  ({ calls := frame.calls.alloc {}
     inbox :=
      if origin = targetOrigin then
        frame.inbox ++ [.request call ns name args]
      else frame.inbox }, .dispatched call)

/-- `postMessage` on a port that was transferred. -/
def postMessage (frame : Frame) (port : Port) (envelope : Envelope) : Frame :=
  match port with
  | .call call =>
      let c := frame.calls.get call
      { frame with
        calls := frame.calls.set call
          { c with incoming := c.incoming ++ [envelope] } }
  | .foreign _ => frame

/-- The window of the host dispatches the next message of the frame. -/
def handle (frame : Frame) : Frame × Reply :=
  match frame.inbox with
  | [] => (frame, .idle)
  | posted :: inbox =>
      let handled := handleSyscallEvent posted.data posted.ports
      let frame := { frame with inbox := inbox }
      match handled with
      | .answered port envelope =>
          (frame.postMessage port envelope, .handled posted handled)
      | .ignored | .threw _ => (frame, .handled posted handled)

end Frame

/-- The next message arrives at `port1`: `onmessage` closes the port, and
resolves the promise with the data of the event. -/
def Call.deliver (c : Call) : Call × Reply :=
  match c.incoming with
  | [] => (c, .idle)
  | envelope :: incoming =>
      if c.closed then ({ c with incoming := incoming }, .discarded)
      else
        ({ incoming := incoming
           closed := true
           resolutions := c.resolutions ++ [envelope] }, .resolved envelope)

def Frame.step (origin : String) (frame : Frame) : Action → Frame × Reply
  | .dispatch ns name args => frame.dispatch origin ns name args
  | .post data ports =>
      ({ frame with inbox := frame.inbox ++ [.foreign data ports] }, .posted)
  | .handle => frame.handle
  | .deliver call =>
      let delivered := (frame.calls.get call).deliver
      ({ frame with calls := frame.calls.set call delivered.1 }, delivered.2)

/-- One frame, as a machine. -/
def machine (origin : String) : Machine Frame Action Reply where
  step := Frame.step origin

/-- The frames of the host page, which has some origin. -/
def page (origin : String) : Machine (ℕ → Frame) (ℕ × Action) Reply :=
  (machine origin).parallel ℕ

/-! ## Everything one action can do -/

/-- `Transition origin frame a frame' reply`: the action can lead to `frame'`
and come to `reply`.  There is one case for each way it can end. -/
inductive Transition (origin : String) (frame : Frame) :
    Action → Frame → Reply → Prop
  | dispatched {ns name : String} {args : List SdkOld.Arg}
      (horigin : origin = targetOrigin) :
      Transition origin frame (.dispatch ns name args)
        ⟨frame.calls.alloc {},
          frame.inbox ++ [.request frame.calls.next ns name args]⟩
        (.dispatched frame.calls.next)
  | lost {ns name : String} {args : List SdkOld.Arg}
      (horigin : origin ≠ targetOrigin) :
      Transition origin frame (.dispatch ns name args)
        ⟨frame.calls.alloc {}, frame.inbox⟩ (.dispatched frame.calls.next)
  | posted {data : Data} {ports : List ℕ} :
      Transition origin frame (.post data ports)
        { frame with inbox := frame.inbox ++ [.foreign data ports] } .posted
  | noMessage (hinbox : frame.inbox = []) :
      Transition origin frame .handle frame .idle
  | answered {call : ℕ} {ns name : String} {args : List SdkOld.Arg}
      {inbox : List Posted}
      (hinbox : frame.inbox = .request call ns name args :: inbox) :
      Transition origin frame .handle
        (Frame.postMessage { frame with inbox := inbox } (.call call)
          acknowledgement)
        (.handled (.request call ns name args)
          (.answered (.call call) acknowledgement))
  | passed {data : Data} {ports : List ℕ} {inbox : List Posted}
      {handled : Handled} (hinbox : frame.inbox = .foreign data ports :: inbox)
      (hhandled : ∀ call envelope, handled ≠ .answered (.call call) envelope) :
      Transition origin frame .handle { frame with inbox := inbox }
        (.handled (.foreign data ports) handled)
  | nothing {call : ℕ} (hincoming : (frame.calls.get call).incoming = []) :
      Transition origin frame (.deliver call) frame .idle
  | discarded {call : ℕ} {envelope : Envelope} {incoming : List Envelope}
      (hincoming : (frame.calls.get call).incoming = envelope :: incoming)
      (hclosed : (frame.calls.get call).closed = true) :
      Transition origin frame (.deliver call)
        ⟨frame.calls.set call ⟨incoming, true,
          (frame.calls.get call).resolutions⟩, frame.inbox⟩ .discarded
  | resolved {call : ℕ} {envelope : Envelope} {incoming : List Envelope}
      (hincoming : (frame.calls.get call).incoming = envelope :: incoming)
      (hclosed : (frame.calls.get call).closed = false) :
      Transition origin frame (.deliver call)
        ⟨frame.calls.set call ⟨incoming, true,
          (frame.calls.get call).resolutions ++ [envelope]⟩, frame.inbox⟩
        (.resolved envelope)

/-- On a message that carries none of the ports of the calls, the handler
answers at none of them. -/
theorem handleSyscallEvent_foreign (data : Data) (ports : List ℕ) :
    ∀ call envelope, handleSyscallEvent data (ports.map .foreign) ≠
      .answered (.call call) envelope := by
  intro call envelope
  rcases data with _ | ⟨type, payload⟩
  · nofun
  · rw [handleSyscallEvent]
    by_cases htype : type = some "__fiber_syscall"
    · rw [if_pos htype]
      cases ports <;> nofun
    · rw [if_neg htype]
      nofun

theorem handle_transition (origin : String) (frame : Frame) :
    Transition origin frame .handle frame.handle.1 frame.handle.2 := by
  rw [Frame.handle]
  rcases hinbox : frame.inbox with _ | ⟨posted, inbox⟩
  · exact .noMessage hinbox
  · cases posted with
    | request call ns name args => exact .answered hinbox
    | foreign data ports =>
        have hforeign := handleSyscallEvent_foreign data ports
        simp only [Posted.data, Posted.ports]
        generalize handleSyscallEvent data (ports.map .foreign) = handled
          at hforeign ⊢
        rcases handled with _ | ⟨_ | _, envelope⟩ | e
        · exact .passed hinbox hforeign
        · exact absurd rfl (hforeign _ envelope)
        · exact .passed hinbox hforeign
        · exact .passed hinbox hforeign

theorem deliver_transition (origin : String) (frame : Frame) (call : ℕ) :
    Transition origin frame (.deliver call)
      (frame.step origin (.deliver call)).1
      (frame.step origin (.deliver call)).2 := by
  simp only [Frame.step, Call.deliver]
  rcases hincoming : (frame.calls.get call).incoming with _ | ⟨envelope, rest⟩
  · rw [Store.set_get_self]
    exact .nothing hincoming
  · rcases hclosed : (frame.calls.get call).closed with _ | _
    · exact .resolved hincoming hclosed
    · exact .discarded hincoming hclosed

theorem step_transition (origin : String) (frame : Frame) (a : Action) :
    Transition origin frame a (frame.step origin a).1
      (frame.step origin a).2 := by
  cases a with
  | dispatch ns name args =>
      simp only [Frame.step, Frame.dispatch]
      by_cases horigin : origin = targetOrigin
      · rw [if_pos horigin]
        exact .dispatched horigin
      · rw [if_neg horigin]
        exact .lost horigin
  | post data ports => exact .posted
  | handle => exact handle_transition origin frame
  | deliver call => exact deliver_transition origin frame call

end Fiber.Webview
