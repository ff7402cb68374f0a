import TableGate.Proofs.Change.Reader

/-!
# Deliveries of a feed

Receivers come and go while rows are published.  A receiver is given what a reader of a log of its
own would be given, the log of the events published since it subscribed (`Mirrors.run`): what other
receivers do, and what was published before, has no part in it.  The main theorem,
`accounts_of_create`, says what this comes to for every feed and every order of operations.
-/

namespace TableGate

namespace Feed

/-- What can be done with a feed. -/
inductive Operation
  | subscribe
  | publish (kind : ChangeKind) (table : String) (rows : List Json)
  | receive (receiver : Nat)
  | drop (receiver : Nat)

/-- The events that an operation publishes. -/
def Operation.events : Operation → List ChangeEvent
  | .publish kind table rows => ChangeEvent.ofRows kind table rows
  | _ => []

/-- What an operation is to one receiver, which other receivers do not concern. -/
def Operation.turn? (receiver : Nat) : Operation → Option Turn
  | .publish kind table rows => some (.publish (ChangeEvent.ofRows kind table rows))
  | .receive other => if other = receiver then some .receive else none
  | _ => none

/-- The feed after an operation. -/
def apply (feed : Feed) : Operation → Feed
  | .subscribe => feed.subscribe.1
  | .publish kind table rows => feed.publish (ChangeEvent.ofRows kind table rows)
  | .receive receiver => (feed.receive receiver).1
  | .drop receiver => feed.drop receiver

def run (feed : Feed) (operations : List Operation) : Feed := operations.foldl apply feed

/-- What an operation gives to a receiver. -/
def gives (feed : Feed) (receiver : Nat) : Operation → List Delivery
  | .receive other => if other = receiver then [(feed.receive receiver).2] else []
  | _ => []

/-- All that operations give to a receiver. -/
def deliveries (receiver : Nat) : Feed → List Operation → List Delivery
  | _, [] => []
  | feed, operation :: rest =>
      feed.gives receiver operation ++ (feed.apply operation).deliveries receiver rest

/-- The events that operations publish. -/
def Operation.published (operations : List Operation) : List ChangeEvent :=
  operations.flatMap events

/-- What operations are to one receiver. -/
def Operation.turns (receiver : Nat) (operations : List Operation) : List Turn :=
  operations.filterMap (turn? receiver)

theorem Operation.events_turns (receiver : Nat) (operations : List Operation) :
    (turns receiver operations).flatMap Turn.events = published operations := by
  induction operations with
  | nil => rfl
  | cons operation rest ih =>
      unfold turns published at ih ⊢
      rw [List.flatMap_cons, ← ih]
      cases operation with
      | receive other =>
          by_cases own : other = receiver <;> simp [turn?, own, Turn.events, events]
      | publish kind table rows => simp [turn?, Turn.events, events]
      | _ => rfl

/-- A receiver stands where a reader does, whose log begins with what was published after some
earlier events. -/
structure Mirrors (receiver : Nat) (feed : Feed) (reader : Reader) : Prop where
  kept : feed.capacity = reader.kept
  place : ∃ earlier, feed.published = earlier ++ reader.log ∧
    feed.receivers[receiver]? = some (some (earlier.length + reader.passed))

variable {feed : Feed} {receiver other : Nat} {reader : Reader}

/-- A new receiver has everything to read that is published from now on. -/
theorem mirrors_subscribe (feed : Feed) :
    Mirrors feed.subscribe.2 feed.subscribe.1 { kept := feed.capacity } :=
  ⟨rfl, feed.published, (List.append_nil _).symm, by simp [subscribe]⟩

/-- A receiver is not concerned by a feed with the same events in which its place is the same. -/
theorem Mirrors.of_same {changed : Feed} (mirrors : Mirrors receiver feed reader)
    (capacity : changed.capacity = feed.capacity) (published : changed.published = feed.published)
    (place : changed.receivers[receiver]? = feed.receivers[receiver]?) :
    Mirrors receiver changed reader := by
  obtain ⟨kept, earlier, log, found⟩ := mirrors
  exact ⟨capacity.trans kept, earlier, published.trans log, place.trans found⟩

theorem Mirrors.subscribe (mirrors : Mirrors receiver feed reader) :
    Mirrors receiver feed.subscribe.1 reader := by
  obtain ⟨-, earlier, -, found⟩ := id mirrors
  obtain ⟨present, -⟩ := List.getElem?_eq_some_iff.mp found
  exact mirrors.of_same rfl rfl (List.getElem?_append_left present)

theorem Mirrors.drop (mirrors : Mirrors receiver feed reader) (apart : other ≠ receiver) :
    Mirrors receiver (feed.drop other) reader :=
  mirrors.of_same rfl rfl (List.getElem?_set_ne apart)

/-- As long as there is a receiver, events are kept. -/
theorem Mirrors.publish (mirrors : Mirrors receiver feed reader) (events : List ChangeEvent) :
    Mirrors receiver (feed.publish events) (reader.after (.publish events)) := by
  obtain ⟨kept, earlier, log, found⟩ := mirrors
  have heard : feed.hasReceivers = true :=
    List.any_eq_true.mpr ⟨_, List.mem_of_getElem? found, rfl⟩
  unfold Feed.publish
  rw [heard]
  exact ⟨kept, earlier, by simp [log, Reader.after], found⟩

/-- What a receiver gets leaves other receivers where they are. -/
theorem Mirrors.receive_other (mirrors : Mirrors receiver feed reader) (apart : other ≠ receiver) :
    Mirrors receiver (feed.receive other).1 reader := by
  have moved (position : Nat) : Mirrors receiver (feed.moveTo other position) reader :=
    mirrors.of_same rfl rfl (List.getElem?_set_ne apart)
  unfold Feed.receive
  split
  · exact mirrors
  · split
    · exact moved _
    · split
      · exact mirrors
      · exact moved _

/-- A receiver that has been moved is where the reader is that has gone on as far. -/
theorem Mirrors.moveTo {span position : Nat} {earlier : List ChangeEvent}
    (kept : feed.capacity = reader.kept) (log : feed.published = earlier ++ reader.log)
    (present : receiver < feed.receivers.length)
    (place : position = earlier.length + (reader.passed + span)) :
    Mirrors receiver (feed.moveTo receiver position)
      { reader with passed := reader.passed + span } :=
  ⟨kept, earlier, log, by simp [Feed.moveTo, present, place]⟩

/-- A receiver gets what its reader is due. -/
theorem Mirrors.receive (mirrors : Mirrors receiver feed reader) :
    (feed.receive receiver).2 = reader.due ∧
      Mirrors receiver (feed.receive receiver).1 (reader.after .receive) := by
  obtain ⟨kept, earlier, log, found⟩ := id mirrors
  obtain ⟨present, -⟩ := List.getElem?_eq_some_iff.mp found
  have count : feed.published.length = earlier.length + reader.log.length := by
    rw [log, List.length_append]
  have next : feed.published[earlier.length + reader.passed]? = reader.log[reader.passed]? := by
    rw [log, List.getElem?_append_right (Nat.le_add_right _ _), Nat.add_sub_cancel_left]
  unfold Feed.receive Reader.after Reader.due
  simp only [found, Option.join_some, next, Feed.oldest, count, kept]
  by_cases behind : reader.passed + reader.kept < reader.log.length
  · rw [if_pos (by omega), if_pos behind]
    exact ⟨congrArg Delivery.lagged (by omega),
      .moveTo kept log present (by simp only [Delivery.span]; omega)⟩
  · rw [if_neg (by omega), if_neg behind]
    cases reader.log[reader.passed]? with
    | none => exact ⟨rfl, mirrors⟩
    | some event => exact ⟨rfl, .moveTo kept log present rfl⟩

/-- A receiver that is not dropped gets what a reader of its turns gets, and ends where it does. -/
theorem Mirrors.run {operations : List Operation} (mirrors : Mirrors receiver feed reader)
    (live : .drop receiver ∉ operations) :
    feed.deliveries receiver operations = reader.read (Operation.turns receiver operations) ∧
      Mirrors receiver (feed.run operations)
        (reader.afterAll (Operation.turns receiver operations)) := by
  induction operations generalizing feed reader with
  | nil => exact ⟨rfl, mirrors⟩
  | cons operation rest ih =>
      obtain ⟨first, later⟩ := not_or.mp (mt List.mem_cons.mpr live)
      have idle (next : Mirrors receiver (feed.apply operation) reader)
          (nothing : feed.gives receiver operation = [])
          (none : operation.turn? receiver = none) :
          feed.deliveries receiver (operation :: rest) =
              reader.read (Operation.turns receiver (operation :: rest)) ∧
            Mirrors receiver (feed.run (operation :: rest))
              (reader.afterAll (Operation.turns receiver (operation :: rest))) := by
        unfold deliveries Operation.turns
        rw [nothing, List.filterMap_cons_none none]
        exact ih next later
      cases operation with
      | subscribe => exact idle mirrors.subscribe rfl rfl
      | publish kind table rows => exact ih (mirrors.publish _) later
      | drop dropped =>
          have apart : dropped ≠ receiver := fun same => first (congrArg Operation.drop same.symm)
          exact idle (mirrors.drop apart) rfl rfl
      | receive taker =>
          by_cases own : taker = receiver
          · subst own
            obtain ⟨given, next⟩ := mirrors.receive
            obtain ⟨others, final⟩ := ih next later
            have turns : Operation.turns taker (.receive taker :: rest) =
                .receive :: Operation.turns taker rest :=
              List.filterMap_cons_some (if_pos rfl)
            rw [turns]
            refine ⟨?_, final⟩
            change (if taker = taker then [(feed.receive taker).2] else []) ++ _ = _
            rw [if_pos rfl, given]
            exact congrArg (reader.due :: ·) others
          · exact idle (mirrors.receive_other own) (if_neg own) (if_neg own)

/-! ### Every feed -/

/-- A capacity is rounded up to the least power of two. -/
theorem roundUp_eq_pow (capacity : Nat) :
    ∃ exponent, roundUp capacity = 2 ^ exponent ∧ capacity ≤ 2 ^ exponent ∧
      ∀ other, capacity ≤ 2 ^ other → exponent ≤ other := by
  unfold roundUp
  split
  · next small => exact ⟨0, rfl, small, fun other _ => Nat.zero_le other⟩
  · next large =>
      have above : capacity - 1 < 2 ^ ((capacity - 1).log2 + 1) := Nat.lt_log2_self
      refine ⟨(capacity - 1).log2 + 1, rfl, by omega, fun other enough => ?_⟩
      exact (Nat.log2_lt (by omega)).mpr (by omega)

theorem run_append (feed : Feed) (first second : List Operation) :
    feed.run (first ++ second) = (feed.run first).run second := List.foldl_append

theorem capacity_apply (feed : Feed) (operation : Operation) :
    (feed.apply operation).capacity = feed.capacity := by
  cases operation with
  | subscribe => rfl
  | publish kind table rows =>
      simp only [apply, publish]
      split <;> rfl
  | drop receiver => rfl
  | receive receiver =>
      simp only [apply, receive]
      repeat' split
      all_goals rfl

theorem capacity_run (feed : Feed) (operations : List Operation) :
    (feed.run operations).capacity = feed.capacity := by
  induction operations generalizing feed with
  | nil => rfl
  | cons operation rest ih =>
      exact (ih (feed.apply operation)).trans (capacity_apply feed operation)

/-- An operation that publishes nothing, and is neither a receive nor the end of the receiver. -/
def Operation.Quiet (receiver : Nat) (operation : Operation) : Prop :=
  operation.events = [] ∧ operation ≠ .receive receiver ∧ operation ≠ .drop receiver

theorem Operation.Quiet.turn {operation : Operation} (quiet : operation.Quiet receiver) :
    operation.turn? receiver = none ∨ operation.turn? receiver = some (.publish []) := by
  obtain ⟨nothing, apart, -⟩ := quiet
  cases operation with
  | publish kind table rows => exact .inr (congrArg (some ∘ Turn.publish) nothing)
  | receive other => exact .inl (if_neg fun same => apart (congrArg Operation.receive same))
  | _ => exact .inl rfl

/-- Quiet operations change nothing for a reader. -/
theorem afterAll_quiet {operations : List Operation}
    (quiet : ∀ operation ∈ operations, operation.Quiet receiver) :
    reader.afterAll (Operation.turns receiver operations) = reader := by
  induction operations with
  | nil => rfl
  | cons operation rest ih =>
      obtain ⟨first, later⟩ := List.forall_mem_cons.mp quiet
      unfold Operation.turns
      rcases first.turn with none | nothing
      · rw [List.filterMap_cons_none none]
        exact ih later
      · rw [List.filterMap_cons_some nothing]
        have same : reader.after (.publish []) = reader := by
          simp only [Reader.after, List.append_nil]
        change (reader.after (.publish [])).afterAll _ = reader
        rw [same]
        exact ih later

/-- How a receiver is served by operations on a feed that keeps so many events. -/
structure Accounts (kept : Nat) (feed : Feed) (receiver : Nat) (operations : List Operation) :
    Prop where
  /-- The events handed over are among those published, in their order and none of them twice. -/
  in_order : ((feed.deliveries receiver operations).filterMap Delivery.event?).Sublist
    (Operation.published operations)
  /-- Between them, exactly as many are left out as the notices announce. -/
  covered : ∃ passed, Delivery.Covers (feed.deliveries receiver operations) passed ∧
    passed <+: Operation.published operations
  /-- Where there is nothing to receive, all that was published has been handed over or
  announced. -/
  complete : ((feed.run operations).receive receiver).2 = .empty →
    ((feed.deliveries receiver operations).filterMap Delivery.event?).length +
        ((feed.deliveries receiver operations).map Delivery.missed).sum =
      (Operation.published operations).length
  /-- After a notice, the oldest event that is kept is handed over, unless more are published. -/
  resumes : ∀ missed, ((feed.run operations).receive receiver).2 = .lagged missed →
    ∀ between : List Operation, (∀ operation ∈ between, operation.Quiet receiver) →
      kept < (Operation.published operations).length ∧
        ∃ event, (Operation.published operations)[(Operation.published operations).length - kept]? =
            some event ∧
          ((feed.run (operations ++ .receive receiver :: between)).receive receiver).2 =
            .event event

/-- A receiver is served as it should be from its subscription on. -/
theorem Mirrors.accounts {operations : List Operation} {kept : Nat} (positive : 0 < kept)
    (mirrors : Mirrors receiver feed { kept := kept }) (live : .drop receiver ∉ operations) :
    Accounts kept feed receiver operations := by
  obtain ⟨given, final⟩ := mirrors.run live
  have log := Reader.log_afterAll { kept := kept } (Operation.turns receiver operations)
  have count := Reader.kept_afterAll { kept := kept } (Operation.turns receiver operations)
  obtain ⟨passed, covers, part, inside⟩ :=
    Reader.covers_read { kept := kept } (Operation.turns receiver operations) (Nat.le_refl 0)
  generalize ({ kept := kept } : Reader).afterAll (Operation.turns receiver operations) = reached
    at final log count part inside
  rw [Operation.events_turns, List.nil_append] at log
  rw [List.take_nil, List.nil_append] at part
  subst part
  rw [log] at inside covers
  rw [← given] at covers
  obtain ⟨next, moved⟩ := final.receive
  refine ⟨covers.sublist.trans (List.take_sublist _ _), ⟨_, covers, List.take_prefix _ _⟩,
    fun empty => ?_, fun missed lagged between quiet => ?_⟩
  · have whole := Reader.passed_of_empty (log ▸ inside) (next.symm.trans empty)
    rw [covers.length, List.length_take, whole, log, Nat.min_self]
  · obtain ⟨behind, event, oldest, due⟩ :=
      Reader.due_after_lagged (count ▸ positive) (next.symm.trans lagged)
    rw [log, count] at behind oldest
    refine ⟨behind, event, oldest, ?_⟩
    have staying : .drop receiver ∉ between := fun member => (quiet _ member).2.2 rfl
    obtain ⟨-, later⟩ := moved.run staying
    rw [afterAll_quiet quiet] at later
    rw [run_append]
    exact later.receive.1.trans due

/-- **Nothing is lost silently.**  A feed of any capacity keeps as many events as the least power
of two that is enough.  Whatever is done with it, a receiver that is not dropped is served as
`Accounts` says from its subscription on.  What it gets depends on what is published from then on
and on its own receives alone; and rows that are published while nobody is subscribed leave the feed
as it was. -/
theorem accounts_of_create {capacity : Nat} (positive : 0 < capacity) :
    ∃ feed, create? capacity = some feed ∧
      (∃ exponent, feed.capacity = 2 ^ exponent ∧ capacity ≤ 2 ^ exponent ∧
        ∀ other, capacity ≤ 2 ^ other → exponent ≤ other) ∧
      ∀ before after : List Operation,
        (.drop (feed.run before).subscribe.2 ∉ after →
          Accounts feed.capacity (feed.run before).subscribe.1 (feed.run before).subscribe.2 after ∧
            ∀ others later : List Operation, .drop (feed.run others).subscribe.2 ∉ later →
              Operation.turns (feed.run others).subscribe.2 later =
                  Operation.turns (feed.run before).subscribe.2 after →
                (feed.run others).subscribe.1.deliveries (feed.run others).subscribe.2 later =
                  (feed.run before).subscribe.1.deliveries (feed.run before).subscribe.2 after) ∧
          ((feed.run before).hasReceivers = false → ∀ kind table rows,
            feed.run (before ++ [.publish kind table rows]) = feed.run before) := by
  refine ⟨{ capacity := roundUp capacity }, if_neg (by omega), roundUp_eq_pow capacity,
    fun before after => ⟨fun live => ?_, fun unheard kind table rows => ?_⟩⟩
  · obtain ⟨exponent, power, enough, -⟩ := roundUp_eq_pow capacity
    have room : 0 < roundUp capacity := by omega
    have joined (operations : List Operation) :
        Mirrors (run { capacity := roundUp capacity } operations).subscribe.2
          (run { capacity := roundUp capacity } operations).subscribe.1
          { kept := roundUp capacity } := by
      have subscribed := mirrors_subscribe (run { capacity := roundUp capacity } operations)
      rwa [capacity_run] at subscribed
    refine ⟨(joined before).accounts room live, fun others later alive same => ?_⟩
    rw [((joined others).run alive).1, ((joined before).run live).1, same]
  · rw [run_append]
    change (run _ before).publish _ = _
    unfold publish
    rw [unheard]
    rfl

/-- Six rows are published to a feed that keeps four, after a row that nobody hears of. -/
def burst : List Operation :=
  [.publish .insert "orders" [.ofInt 1, .ofInt 2, .ofInt 3, .ofInt 4, .ofInt 5, .ofInt 6],
    .subscribe, .receive 0, .receive 1, .receive 0, .drop 1]

/-- The first receiver is told that it missed two rows, and goes on with the third. -/
theorem accounts_of_create_burst :
    ∃ feed, create? 3 = some feed ∧ feed.capacity = 4 ∧
      (feed.run [.publish .insert "orders" [.null]]).subscribe.2 = 0 ∧
      .drop 0 ∉ burst ∧
      (feed.run [.publish .insert "orders" [.null]]).subscribe.1.deliveries 0 burst =
        [.lagged 2, .event ⟨.insert, "orders", .ofInt 3⟩] ∧
      Accounts 4 (feed.run [.publish .insert "orders" [.null]]).subscribe.1 0 burst := by
  obtain ⟨feed, created, -, served⟩ := accounts_of_create (show 0 < 3 by decide)
  have shape : create? 3 = some { capacity := 4 } := by rfl
  obtain rfl := Option.some.inj (shape.symm.trans created)
  have live : .drop 0 ∉ burst := by simp [burst]
  exact ⟨_, created, rfl, rfl, live, rfl,
    ((served [.publish .insert "orders" [.null]] burst).1 live).1⟩

end Feed

end TableGate
