import Ergo.Proofs.Session.Linearization

/-!
Boards with one session. Whoever makes a request on a board waits for its reply, so that a board goes
through some of what can happen to a service, and its replies are those that one client would get.
-/

namespace Ergo.Session

namespace Service

/-- Whether a board with one session shows a service that has served every request. -/
structure Shows (board : SessionBoard) (service : Service) : Prop where
  sessions_eq : board.sessions = [service.session]
  held_eq : board.handles.map Option.isSome = service.held
  mailbox_eq : service.mailbox = []

theorem shows_start (solver : Constraint.Solver) : Shows (.new solver) (start solver) where
  sessions_eq := rfl
  held_eq := rfl
  mailbox_eq := rfl

namespace Shows

variable {board next : SessionBoard} {service : Service} {handle : Nat}

theorem isHeld (shows : Shows board service) {place : Nat}
    (reached : board.reach? handle = some place) : service.held[handle]? = some true := by
  have reaches : board.handles[handle]? = some (some place) := Option.join_eq_some_iff.mp reached
  rw [← shows.held_eq, List.getElem?_map, reaches]
  rfl

theorem clone (shows : Shows board service) {number : Nat}
    (cloned : board.clone? handle = some (next, number)) :
    number = service.held.length ∧
      ∃ later, Step service (.clone handle) later ∧ Shows next later := by
  obtain ⟨place, reached, made⟩ := Option.map_eq_some_iff.mp cloned
  cases made
  have numbered : board.handles.length = service.held.length := by
    rw [← shows.held_eq, List.length_map]
  refine ⟨numbered, _, .clone (shows.isHeld reached), ?_⟩
  exact {
    sessions_eq := shows.sessions_eq
    held_eq := by simp [shows.held_eq]
    mailbox_eq := shows.mailbox_eq }

theorem release (shows : Shows board service) (dropped : board.drop? handle = some next) :
    ∃ later, Step service (.release handle) later ∧ Shows next later := by
  obtain ⟨place, reached, rfl⟩ := Option.map_eq_some_iff.mp dropped
  refine ⟨_, .release (shows.isHeld reached), ?_⟩
  exact {
    sessions_eq := shows.sessions_eq
    held_eq := by simp [← shows.held_eq, List.map_set]
    mailbox_eq := shows.mailbox_eq }

theorem eq_of_request? (shows : Shows board service) {request : Request} {reply : Reply}
    (requested : board.request? handle request = some (next, reply)) :
    service.held[handle]? = some true ∧ reply = (service.session.serve request).2 ∧
      next = { board with sessions := [(service.session.serve request).1] } := by
  obtain ⟨place, reached, rest⟩ := Option.bind_eq_some_iff.mp requested
  obtain ⟨session, found, answered⟩ := Option.bind_eq_some_iff.mp rest
  obtain ⟨rfl, rfl⟩ := Prod.mk.inj (Option.some.inj answered)
  refine ⟨shows.isHeld reached, ?_⟩
  rw [shows.sessions_eq] at found ⊢
  cases place with
  | zero =>
      cases found
      exact ⟨rfl, rfl⟩
  | succ place => cases found

/-- A request on a board is sent and served at once, and its reply arrives. -/
theorem request (shows : Shows board service) {request : Request} {reply : Reply}
    (requested : board.request? handle request = some (next, reply)) :
    ∃ between later,
      Step service (.send ⟨handle, request, service.channels.length⟩) between ∧
      Step between (.serve ⟨handle, request, service.channels.length⟩) later ∧
      Shows next later ∧ later.channels[service.channels.length]? = some (.answered reply) := by
  obtain ⟨isHeld, rfl, rfl⟩ := shows.eq_of_request? requested
  have room : service.mailbox.length < capacity := by simp [shows.mailbox_eq, capacity]
  have alone : service.mailbox ++ [⟨handle, request, service.channels.length⟩] =
      ⟨handle, request, service.channels.length⟩ :: [] := by
    rw [shows.mailbox_eq, List.nil_append]
  have served : service.session.serve request =
      ((service.session.serve request).1, (service.session.serve request).2) := rfl
  refine ⟨_, _, .send isHeld room, .serve alone served, ?_, ?_⟩
  · exact {
      sessions_eq := rfl
      held_eq := shows.held_eq
      mailbox_eq := rfl }
  · simp [Channel.deliver]

end Shows

/-- What handles of one session lead to, with the requests made and their replies, oldest first. -/
inductive OnBoard (solver : Constraint.Solver) : SessionBoard → List (Request × Reply) → Prop
  | new : OnBoard solver (.new solver) []
  | clone {board next : SessionBoard} {exchanges : List (Request × Reply)} {handle number : Nat}
      (onBoard : OnBoard solver board exchanges) (cloned : board.clone? handle = some (next, number)) :
      OnBoard solver next exchanges
  | drop {board next : SessionBoard} {exchanges : List (Request × Reply)} {handle : Nat}
      (onBoard : OnBoard solver board exchanges) (dropped : board.drop? handle = some next) :
      OnBoard solver next exchanges
  | request {board next : SessionBoard} {exchanges : List (Request × Reply)} {handle : Nat}
      {request : Request} {reply : Reply} (onBoard : OnBoard solver board exchanges)
      (requested : board.request? handle request = some (next, reply)) :
      OnBoard solver next (exchanges ++ [(request, reply)])

theorem exists_run_of_onBoard {solver : Constraint.Solver} {board : SessionBoard}
    {exchanges : List (Request × Reply)}
    (onBoard : OnBoard solver board exchanges) :
    ∃ events service, Run solver events service ∧ Shows board service ∧
      exchanges = (new solver).run (requests (served events)) := by
  induction onBoard with
  | new => exact ⟨[], _, .start, shows_start solver, rfl⟩
  | clone _ cloned induction =>
      obtain ⟨events, service, run, shows, exchanged⟩ := induction
      obtain ⟨-, later, step, showsNext⟩ := shows.clone cloned
      refine ⟨_, later, run.step step, showsNext, ?_⟩
      rw [exchanged, served_concat_of_eq_none rfl]
  | drop _ dropped induction =>
      obtain ⟨events, service, run, shows, exchanged⟩ := induction
      obtain ⟨later, step, showsNext⟩ := shows.release dropped
      refine ⟨_, later, run.step step, showsNext, ?_⟩
      rw [exchanged, served_concat_of_eq_none rfl]
  | request _ requested induction =>
      obtain ⟨events, service, run, shows, exchanged⟩ := induction
      obtain ⟨between, later, send, serve, showsNext, -⟩ := shows.request requested
      obtain ⟨-, replied, -⟩ := shows.eq_of_request? requested
      refine ⟨_, later, (run.step send).step serve, showsNext, ?_⟩
      rw [served_concat, served_concat_of_eq_none rfl, requests_append, run_append, exchanged,
        replied, (orderly_of_run run).session_eq]
      rfl

end Service

end Ergo.Session
