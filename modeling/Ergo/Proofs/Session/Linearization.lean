import Ergo.Proofs.Session.Runs
import Ergo.Session.Service

/-!
A session with many clients answers as it would answer one. Its requests are served in the order in
which they are sent, and the session is what these requests alone lead to: handles that come and go
and clients that stop waiting have no part in it.
-/

namespace Ergo.Session

/-! ## One client -/

/-- What the requests lead to when one client makes them, one after the other. -/
def afterServing (solver : Constraint.Solver) (envelopes : List Envelope) : Session :=
  ((new solver).serveAll (requests envelopes)).1

def repliesTo (solver : Constraint.Solver) (envelopes : List Envelope) : List Reply :=
  ((new solver).serveAll (requests envelopes)).2

def replyTo (solver : Constraint.Solver) (before : List Envelope) (envelope : Envelope) : Reply :=
  ((afterServing solver before).serve envelope.request).2

variable {solver : Constraint.Solver}

theorem requests_append (first later : List Envelope) :
    requests (first ++ later) = requests first ++ requests later :=
  List.map_append

theorem afterServing_append (first later : List Envelope) :
    afterServing solver (first ++ later) =
      ((afterServing solver first).serveAll (requests later)).1 := by
  rw [afterServing, requests_append, serveAll_append]
  rfl

theorem repliesTo_append (first later : List Envelope) :
    repliesTo solver (first ++ later) =
      repliesTo solver first ++ ((afterServing solver first).serveAll (requests later)).2 := by
  rw [repliesTo, requests_append, serveAll_append]
  rfl

theorem length_repliesTo (solver : Constraint.Solver) (envelopes : List Envelope) :
    (repliesTo solver envelopes).length = envelopes.length := by
  induction envelopes using List.reverseRecOn with
  | nil => rfl
  | append_singleton envelopes envelope induction =>
      simp [repliesTo_append, induction, requests, serveAll]

theorem getElem?_repliesTo (before after : List Envelope) (envelope : Envelope) :
    (repliesTo solver (before ++ envelope :: after))[before.length]? =
      some (replyTo solver before envelope) := by
  rw [repliesTo_append, List.getElem?_append_right (by rw [length_repliesTo]), length_repliesTo,
    Nat.sub_self]
  rfl

/-- What has arrived on the channel of a request on which somebody still waits. -/
def expected (solver : Constraint.Solver) (envelopes : List Envelope) (place : Nat) : Channel :=
  (repliesTo solver envelopes)[place]?.elim .waiting .answered

theorem expected_of_length_le {envelopes : List Envelope} {place : Nat}
    (later : envelopes.length ≤ place) : expected solver envelopes place = .waiting := by
  rw [← length_repliesTo solver] at later
  simp [expected, later]

theorem expected_length (solver : Constraint.Solver) (before after : List Envelope)
    (envelope : Envelope) :
    expected solver (before ++ envelope :: after) before.length =
      .answered (replyTo solver before envelope) := by
  rw [expected, getElem?_repliesTo]
  rfl

theorem expected_concat_of_ne {envelopes : List Envelope} {place : Nat}
    (other : place ≠ envelopes.length) (envelope : Envelope) :
    expected solver (envelopes ++ [envelope]) place = expected solver envelopes place := by
  rcases Nat.lt_or_gt_of_ne other with earlier | later
  · rw [expected, repliesTo_append,
      List.getElem?_append_left (by rwa [length_repliesTo]), ← expected]
  · have beyond : (envelopes ++ [envelope]).length ≤ place := by
      rw [List.length_append]
      exact later
    rw [expected_of_length_le beyond, expected_of_length_le later.le]

/-! ## Many clients -/

theorem sent_concat (events : List Event) (event : Event) :
    sent (events ++ [event]) = sent events ++ event.sent?.toList := by
  cases event <;> simp [sent, Event.sent?]

theorem served_concat (events : List Event) (event : Event) :
    served (events ++ [event]) = served events ++ event.served?.toList := by
  cases event <;> simp [served, Event.served?]

theorem sent_concat_of_eq_none {event : Event} (notSent : event.sent? = none)
    (events : List Event) : sent (events ++ [event]) = sent events := by
  rw [sent_concat, notSent, Option.toList_none, List.append_nil]

theorem served_concat_of_eq_none {event : Event} (notServed : event.served? = none)
    (events : List Event) : served (events ++ [event]) = served events := by
  rw [served_concat, notServed, Option.toList_none, List.append_nil]

namespace Service

/-- What holds of a service after `events`. The channel of a request is numbered by its place among
all requests, which is also the place of its reply. -/
structure Orderly (solver : Constraint.Solver) (events : List Event) (service : Service) :
    Prop where
  served_append_mailbox : served events ++ service.mailbox = sent events
  channels_sent : (sent events).map Envelope.channel = List.range service.channels.length
  session_eq : service.session = afterServing solver (served events)
  channel_eq : ∀ place channel, service.channels[place]? = some channel →
    channel = .dropped ∧ .abandon place ∈ events ∨ channel = expected solver (served events) place

theorem Orderly.start : Orderly solver [] (start solver) where
  served_append_mailbox := rfl
  channels_sent := rfl
  session_eq := rfl
  channel_eq := by simp [Service.start]

namespace Orderly

variable {events : List Event} {service : Service}

theorem length_sent (orderly : Orderly solver events service) :
    (sent events).length = service.channels.length := by
  simpa using congrArg List.length orderly.channels_sent

theorem length_served_le (orderly : Orderly solver events service) :
    (served events).length ≤ service.channels.length := by
  rw [← orderly.length_sent, ← orderly.served_append_mailbox, List.length_append]
  exact Nat.le_add_right _ _

theorem channel_of_sent (orderly : Orderly solver events service) {before after : List Envelope}
    {envelope : Envelope} (split : sent events = before ++ envelope :: after) :
    envelope.channel = before.length := by
  have opened : before.length < service.channels.length := by
    rw [← orderly.length_sent, split]
    simp
  have numbered := congrArg (·[before.length]?) orderly.channels_sent
  simpa [split, List.getElem?_range opened] using numbered

/-- An event that neither sends nor serves a request. -/
theorem silent (orderly : Orderly solver events service) {event : Event}
    (notSent : event.sent? = none) (notServed : event.served? = none) {channels : List Channel}
    (length_eq : channels.length = service.channels.length)
    (kept : ∀ place channel, channels[place]? = some channel →
      channel = .dropped ∧ event = .abandon place ∨ service.channels[place]? = some channel)
    (held : List Bool) :
    Orderly solver (events ++ [event]) { service with channels := channels, held := held } := by
  have sameSent := sent_concat_of_eq_none notSent events
  have sameServed := served_concat_of_eq_none notServed events
  exact {
    served_append_mailbox := by rw [sameSent, sameServed, orderly.served_append_mailbox]
    channels_sent := by rw [sameSent, length_eq, orderly.channels_sent]
    session_eq := by rw [sameServed, orderly.session_eq]
    channel_eq := by
      intro place channel found
      rw [sameServed, List.mem_append, List.mem_singleton]
      rcases kept place channel found with ⟨dropped, rfl⟩ | old
      · exact .inl ⟨dropped, .inr rfl⟩
      · exact (orderly.channel_eq place channel old).imp_left (.imp_right .inl) }

theorem send (orderly : Orderly solver events service) (client : Nat) (request : Request) :
    Orderly solver (events ++ [.send ⟨client, request, service.channels.length⟩])
      { service with
        mailbox := service.mailbox ++ [⟨client, request, service.channels.length⟩]
        channels := service.channels ++ [.waiting] } := by
  have sameServed :
      served (events ++ [.send ⟨client, request, service.channels.length⟩]) = served events :=
    served_concat_of_eq_none rfl events
  exact {
    served_append_mailbox := by
      rw [sameServed, sent_concat, ← orderly.served_append_mailbox, List.append_assoc]
      rfl
    channels_sent := by
      simp [sent_concat, Event.sent?, orderly.channels_sent, List.range_succ]
    session_eq := by rw [sameServed, orderly.session_eq]
    channel_eq := by
      intro place channel found
      rw [sameServed, List.mem_append]
      rcases Nat.lt_or_ge place service.channels.length with opened | late
      · rw [List.getElem?_append_left opened] at found
        exact (orderly.channel_eq place channel found).imp_left (.imp_right .inl)
      · -- The new channel is the only one that was not there.
        have waits : channel = .waiting := by
          rw [List.getElem?_append_right late] at found
          simpa using List.mem_of_getElem? found
        rw [expected_of_length_le (orderly.length_served_le.trans late)]
        exact .inr waits }

theorem serve (orderly : Orderly solver events service) {envelope : Envelope} {later : List Envelope}
    (next : service.mailbox = envelope :: later) :
    Orderly solver (events ++ [.serve envelope])
      { service with
        session := (service.session.serve envelope.request).1
        mailbox := later
        channels := service.channels.modify envelope.channel
          (Channel.deliver (service.session.serve envelope.request).2) } := by
  have sameSent : sent (events ++ [.serve envelope]) = sent events :=
    sent_concat_of_eq_none rfl events
  have nowServed : served (events ++ [.serve envelope]) = served events ++ [envelope] :=
    served_concat events _
  have split : sent events = served events ++ envelope :: later := by
    rw [← orderly.served_append_mailbox, next]
  have numbered : envelope.channel = (served events).length := orderly.channel_of_sent split
  have answer : (service.session.serve envelope.request).2 =
      replyTo solver (served events) envelope := by
    rw [orderly.session_eq, replyTo]
  exact {
    served_append_mailbox := by rw [nowServed, sameSent, split, List.append_assoc]; rfl
    channels_sent := by rw [sameSent, List.length_modify, orderly.channels_sent]
    session_eq := by
      rw [nowServed, afterServing_append, ← orderly.session_eq]
      rfl
    channel_eq := by
      intro place channel found
      rw [nowServed, List.mem_append]
      rw [List.getElem?_modify, numbered, answer] at found
      obtain ⟨old, foundOld, rfl⟩ := Option.map_eq_some_iff.mp found
      rcases orderly.channel_eq place old foundOld with ⟨rfl, abandoned⟩ | rfl
      · refine .inl ⟨?_, .inl abandoned⟩
        split <;> rfl
      · right
        split
        · next own =>
            rw [← own, expected_of_length_le le_rfl, expected_length]
            rfl
        · next other => rw [expected_concat_of_ne (Ne.symm other)] }

theorem step (orderly : Orderly solver events service) {event : Event} {next : Service}
    (step : Step service event next) : Orderly solver (events ++ [event]) next := by
  cases step with
  | clone => exact orderly.silent rfl rfl rfl (fun _ _ found => .inr found) _
  | release => exact orderly.silent rfl rfl rfl (fun _ _ found => .inr found) _
  | send => exact orderly.send _ _
  | abandon =>
      refine orderly.silent rfl rfl List.length_set ?_ _
      intro place channel found
      rw [List.getElem?_set] at found
      split at found
      · next own =>
          subst own
          exact .inl ⟨(Option.some.inj found).symm, rfl⟩
      · exact .inr found
  | serve next served =>
      have afterwards := orderly.serve next
      rwa [served] at afterwards

theorem channel_of_served (orderly : Orderly solver events service) {before after : List Envelope}
    {envelope : Envelope} (split : served events = before ++ envelope :: after) :
    envelope.channel = before.length := by
  have whole : sent events = before ++ envelope :: (after ++ service.mailbox) := by
    rw [← orderly.served_append_mailbox, split, List.append_assoc, List.cons_append]
  exact orderly.channel_of_sent whole

theorem exists_of_answered (orderly : Orderly solver events service) {channel : Nat} {reply : Reply}
    (found : service.channels[channel]? = some (.answered reply)) :
    ∃ before envelope after, served events = before ++ envelope :: after ∧
      envelope.channel = channel ∧ reply = replyTo solver before envelope := by
  have answered : .answered reply = expected solver (served events) channel := by
    simpa using orderly.channel_eq channel _ found
  have given : channel < (served events).length := by
    by_contra later
    rw [expected_of_length_le (Nat.le_of_not_lt later)] at answered
    cases answered
  have split : served events = (served events).take channel ++
      (served events)[channel] :: (served events).drop (channel + 1) := by
    rw [← List.drop_eq_getElem_cons given, List.take_append_drop]
  have place : ((served events).take channel).length = channel :=
    List.length_take_of_le given.le
  refine ⟨_, _, _, split, (orderly.channel_of_served split).trans place, ?_⟩
  have shown := expected_length solver ((served events).take channel)
    ((served events).drop (channel + 1)) (served events)[channel]
  rw [← split, place, ← answered] at shown
  exact Channel.answered.inj shown

theorem answered_of_served (orderly : Orderly solver events service) {before after : List Envelope}
    {envelope : Envelope} (split : served events = before ++ envelope :: after)
    (awaited : .abandon envelope.channel ∉ events) :
    service.channels[envelope.channel]? = some (.answered (replyTo solver before envelope)) := by
  have opened : envelope.channel < service.channels.length := by
    have within := orderly.length_served_le
    rw [split, List.length_append, List.length_cons, ← orderly.channel_of_served split] at within
    omega
  rw [List.getElem?_eq_getElem opened, Option.some.injEq]
  rcases orderly.channel_eq _ _ (List.getElem?_eq_getElem opened) with ⟨-, abandoned⟩ | answered
  · exact absurd abandoned awaited
  · rw [answered, orderly.channel_of_served split, split, expected_length]

end Orderly

theorem exists_run_of_append {first later : List Event} {service : Service}
    (run : Run solver (first ++ later) service) : ∃ earlier, Run solver first earlier := by
  induction later using List.reverseRecOn generalizing service with
  | nil =>
      rw [List.append_nil] at run
      exact ⟨service, run⟩
  | append_singleton later event induction =>
      rw [← List.append_assoc] at run
      generalize whole : first ++ later ++ [event] = events at run
      cases run with
      | start => simp at whole
      | step run step =>
          obtain ⟨rfl, -⟩ := List.append_inj' whole rfl
          exact induction run

theorem orderly_of_run {events : List Event} {service : Service} (run : Run solver events service) :
    Orderly solver events service := by
  induction run with
  | start => exact .start
  | step _ step induction => exact induction.step step

/-- What is sent after a request was served comes after it. -/
theorem sent_eq_of_served {earlier later : List Event} {answered : Envelope} {service : Service}
    (run : Run solver (earlier ++ .serve answered :: later) service) :
    ∃ before after,
      sent (earlier ++ .serve answered :: later) = before ++ answered :: after ++ sent later := by
  rw [List.append_cons] at run
  obtain ⟨atAnswer, runAtAnswer⟩ := exists_run_of_append run
  have served_append_mailbox := (orderly_of_run runAtAnswer).served_append_mailbox
  rw [served_concat, sent_concat_of_eq_none rfl] at served_append_mailbox
  have sentEarlier : answered ∈ sent earlier := by
    rw [← served_append_mailbox]
    simp [Event.served?]
  obtain ⟨before, after, split⟩ := List.append_of_mem sentEarlier
  refine ⟨before, after, ?_⟩
  rw [← split]
  exact List.filterMap_append

/-- What many clients see of a session is what one would see that makes their requests in the order
in which they are sent. -/
structure Linearized (solver : Constraint.Solver) (events : List Event) (service : Service) :
    Prop where
  served_append_mailbox : served events ++ service.mailbox = sent events
  ofClient_served : ∀ client,
    ofClient client (served events) ++ ofClient client service.mailbox =
      ofClient client (sent events)
  sent_eq : ∀ earlier answered later, events = earlier ++ .serve answered :: later →
    ∃ before after, sent events = before ++ answered :: after ++ sent later
  nodup_channels : ((sent events).map Envelope.channel).Nodup
  session_eq : service.session = afterServing solver (served events)
  exists_of_answered : ∀ channel reply, service.channels[channel]? = some (.answered reply) →
    ∃ before envelope after, served events = before ++ envelope :: after ∧
      envelope.channel = channel ∧ reply = replyTo solver before envelope
  answered_of_served : ∀ before envelope after, served events = before ++ envelope :: after →
    .abandon envelope.channel ∉ events →
      service.channels[envelope.channel]? = some (.answered (replyTo solver before envelope))
  log_eq : service.session.log = acceptedTexts ((new solver).run (requests (served events)))
  count_log : ∀ text, service.session.log.count text =
    (sinceReset ((new solver).run (requests (served events)))).countP (acceptedText? · = some text)
  log_of_added : ∀ before envelope after text log,
    served events = before ++ envelope :: after →
      replyTo solver before envelope = .added text log →
      envelope.request = .add text ∧ log = (afterServing solver before).log ++ [text] ∧
        ((∀ later ∈ after, later.request ≠ .reset) →
          service.session.log = log ++
            ((afterServing solver (before ++ [envelope])).run (requests after)).filterMap
              acceptedText?)

/-- Whatever many clients do, and in whatever order, the session serves their requests as it would serve
one client, and each reply that arrives is the one to its own request. -/
theorem linearized_of_run {events : List Event} {service : Service} (run : Run solver events service) :
    Linearized solver events service := by
  have orderly := orderly_of_run run
  have log_eq : service.session.log = acceptedTexts ((new solver).run (requests (served events))) := by
    rw [orderly.session_eq]
    exact ((Records.new solver).serveAll (requests (served events))).log_eq
  exact {
    served_append_mailbox := orderly.served_append_mailbox
    ofClient_served := by
      intro client
      rw [← orderly.served_append_mailbox, ofClient, ofClient, ofClient, List.filter_append]
    sent_eq := by
      rintro earlier answered later rfl
      exact sent_eq_of_served run
    nodup_channels := orderly.channels_sent ▸ List.nodup_range
    session_eq := orderly.session_eq
    exists_of_answered := fun _ _ => orderly.exists_of_answered
    answered_of_served := fun _ _ _ => orderly.answered_of_served
    log_eq := log_eq
    count_log := by
      intro text
      rw [log_eq, count_acceptedTexts]
    log_of_added := by
      intro before envelope after text log split added
      obtain ⟨isAdd, logged, extended⟩ := eq_of_serve_eq_added added
      refine ⟨isAdd, logged, ?_⟩
      intro noReset
      have others : ∀ request ∈ requests after, request ≠ .reset :=
        List.forall_mem_map.mpr noReset
      have served : (afterServing solver (before ++ [envelope])).log = log := by
        rw [afterServing_append]
        exact extended
      rw [orderly.session_eq, split, List.append_cons, afterServing_append, log_serveAll others,
        served] }

/-- Both clients add a text, and the second one resets the session between them and stops waiting for
its last reply. -/
def twoClients : List Event :=
  [.clone 0, .send ⟨0, .add "x = y", 0⟩, .send ⟨1, .reset, 1⟩, .send ⟨1, .add "x < y", 2⟩,
    .serve ⟨0, .add "x = y", 0⟩, .abandon 2, .serve ⟨1, .reset, 1⟩, .release 1,
    .send ⟨0, .add "x <", 3⟩, .serve ⟨1, .add "x < y", 2⟩, .serve ⟨0, .add "x <", 3⟩,
    .send ⟨0, .check, 4⟩]

def afterTwoClients : Service where
  session := (new .elimination).extend "x < y" [.compare .less (.var "x") (.var "y")]
  mailbox := [⟨0, .check, 4⟩]
  channels :=
    [.answered (.added "x = y" ["x = y"]), .answered .wasReset, .dropped,
      .answered (.refused (.malformed (Language.ParseError.message ⟨3, .unexpectedEnd⟩))), .waiting]
  held := [true, false]

theorem run_twoClients : Run .elimination twoClients afterTwoClients := by
  have first : (new .elimination).serve (.add "x = y") =
      ((new .elimination).extend "x = y" [.compare .equal (.var "x") (.var "y")],
        .added "x = y" ["x = y"]) :=
    serve_add_of_read (by decide) (by decide +kernel) _
  have second : (new .elimination).reset.serve (.add "x < y") =
      (afterTwoClients.session, .added "x < y" ["x < y"]) :=
    serve_add_of_read (by decide) (by decide +kernel) _
  have unreadable : Constraint.parseList "x <" = .error ⟨3, .unexpectedEnd⟩ := by decide +kernel
  have refused : afterTwoClients.session.serve (.add "x <") =
      (afterTwoClients.session,
        .refused (.malformed (Language.ParseError.message ⟨3, .unexpectedEnd⟩))) := by
    rw [serve, add_of_malformed (by decide) unreadable]
  exact Run.start.step (@Step.clone _ 0 rfl)
    |>.step (@Step.send _ 0 (.add "x = y") rfl (by decide))
    |>.step (@Step.send _ 1 .reset rfl (by decide))
    |>.step (@Step.send _ 1 (.add "x < y") rfl (by decide))
    |>.step (.serve rfl first)
    |>.step (@Step.abandon _ 2 (by decide))
    |>.step (.serve rfl rfl)
    |>.step (@Step.release _ 1 rfl)
    |>.step (@Step.send _ 0 (.add "x <") rfl (by decide))
    |>.step (.serve rfl second)
    |>.step (.serve rfl refused)
    |>.step (@Step.send _ 0 .check rfl (by decide))

theorem twoClients_linearized :
    Run .elimination twoClients afterTwoClients ∧
      Linearized .elimination twoClients afterTwoClients :=
  ⟨run_twoClients, linearized_of_run run_twoClients⟩

end Service

end Ergo.Session
