import Ergo.Session.Request

/-!
A session that serves many clients. Their requests go through one mailbox, in the order in which they
are sent, and are served one at a time. Every request has a reply channel of its own, on which its
client may stop waiting at any time.
-/

namespace Ergo.Session

inductive Channel
  | waiting
  | answered (reply : Reply)
  | dropped

/-- A reply on which nobody waits any more is lost. -/
def Channel.deliver (reply : Reply) : Channel → Channel
  | .waiting => .answered reply
  | channel => channel

structure Envelope where
  client : Nat
  request : Request
  channel : Nat
  deriving DecidableEq, Repr

/-- Clients are numbered in the order in which their handles were made and channels in the order in
which they were opened; `held` tells which handles still exist. -/
structure Service where
  session : Session
  mailbox : List Envelope
  channels : List Channel
  held : List Bool

inductive Event
  | clone (client : Nat)
  | release (client : Nat)
  | send (envelope : Envelope)
  | abandon (channel : Nat)
  | serve (envelope : Envelope)
  deriving DecidableEq, Repr

namespace Service

def capacity : Nat := 64

/-- A new session with one handle to it. -/
def start (solver : Constraint.Solver) : Service :=
  { session := .new solver, mailbox := [], channels := [], held := [true] }

/-- What can happen next. Without handles and requests nothing is served any more. -/
inductive Step : Service → Event → Service → Prop
  | clone {service : Service} {client : Nat} (isHeld : service.held[client]? = some true) :
      Step service (.clone client) { service with held := service.held ++ [true] }
  | release {service : Service} {client : Nat} (isHeld : service.held[client]? = some true) :
      Step service (.release client) { service with held := service.held.set client false }
  | send {service : Service} {client : Nat} {request : Request}
      (isHeld : service.held[client]? = some true)
      (room : service.mailbox.length < capacity) :
      Step service (.send ⟨client, request, service.channels.length⟩)
        { service with
          mailbox := service.mailbox ++ [⟨client, request, service.channels.length⟩]
          channels := service.channels ++ [.waiting] }
  | abandon {service : Service} {channel : Nat} (opened : channel < service.channels.length) :
      Step service (.abandon channel)
        { service with channels := service.channels.set channel .dropped }
  | serve {service : Service} {envelope : Envelope} {later : List Envelope} {session : Session}
      {reply : Reply} (next : service.mailbox = envelope :: later)
      (served : service.session.serve envelope.request = (session, reply)) :
      Step service (.serve envelope)
        { service with
          session := session
          mailbox := later
          channels := service.channels.modify envelope.channel (Channel.deliver reply) }

/-- Everything that has happened, oldest first, and what it has led to. -/
inductive Run (solver : Constraint.Solver) : List Event → Service → Prop
  | start : Run solver [] (start solver)
  | step {events : List Event} {service next : Service} {event : Event}
      (run : Run solver events service) (step : Step service event next) :
      Run solver (events ++ [event]) next

end Service

/-! ## Histories -/

def Event.sent? : Event → Option Envelope
  | .send envelope => some envelope
  | _ => none

def Event.served? : Event → Option Envelope
  | .serve envelope => some envelope
  | _ => none

def sent (events : List Event) : List Envelope :=
  events.filterMap Event.sent?

def served (events : List Event) : List Envelope :=
  events.filterMap Event.served?

def requests (envelopes : List Envelope) : List Request :=
  envelopes.map Envelope.request

def ofClient (client : Nat) (envelopes : List Envelope) : List Envelope :=
  envelopes.filter (·.client == client)

end Ergo.Session
