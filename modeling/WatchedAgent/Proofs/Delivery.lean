import WatchedAgent.Model.Polling

/-!
# `WatchedAgent.Proofs.Delivery`: every sample reaches the poller

A `World` follows every recorded sample next to the agent. It waits until a request reads
its series, and it is due when that request ends, unless its series had overrun it by then.
A sample that still waits at the end of a request that began after it is due as well.

* `Delivered`: each sample that is due is in a reply.
* `Ordered`: in each reply every series is in the order it was recorded.

Three facts carry the proof. A waiting sample is not older than `since` (`Inv.recent`). It
stands where the count of newer samples says (`Inv.position`). And once its series was read,
no later turn of the request writes to the same place (`pairwise_turns`). The last one
needs the services to have different identifiers.
-/

set_option autoImplicit false

namespace WatchedAgent.Proofs

open WatchedAgent.Lib (Json)
open WatchedAgent.Lib.Run
open WatchedAgent.Model
open WatchedAgent.Model.Polling

/-! ### A recording -/

namespace Delivery

theorem v_setProperty (name : String) (val : Json) (r : Ressource) :
    (r.setProperty name val).v = r.v.modifyHead (Json.insert name val) := by
  unfold Ressource.setProperty
  cases hv : r.v with
  | nil => exact hv
  | cons s v => rfl

theorem size_setProperty (name : String) (val : Json) (r : Ressource) :
    (r.setProperty name val).size = r.size := by
  unfold Ressource.setProperty
  split <;> rfl

theorem size_record (now : Int) (props : List (String × Json)) (r : Ressource) :
    (r.record now props).size = r.size := by
  have hprops : ∀ (props : List (String × Json)) (r : Ressource),
      (props.foldl (fun r p => r.setProperty p.1 p.2) r).size = r.size := by
    intro props
    induction props with
    | nil => intro r; rfl
    | cons p props ih => intro r; rw [List.foldl_cons, ih, size_setProperty]
  exact hprops props _

/-- A recording puts its sample on top, and cuts off what is over the size. -/
theorem v_record (now : Int) (props : List (String × Json)) (r : Ressource) :
    (r.record now props).v
      = (Ressource.newSample now props (r.v.headD []) :: r.v).take r.size := by
  -- Along the calls only the head changes.
  have hprops : ∀ (props : List (String × Json)) (r : Ressource) (s : Sample) (v : List Sample),
      r.v = (s :: v).take r.size → (props.foldl (fun r p => r.setProperty p.1 p.2) r).v
        = (props.foldl (fun s p => Json.insert p.1 p.2 s) s :: v).take r.size := by
    intro props
    induction props with
    | nil => intro r s v h; exact h
    | cons p props ih =>
        intro r s v h
        have hstep : (r.setProperty p.1 p.2).v
            = (Json.insert p.1 p.2 s :: v).take (r.setProperty p.1 p.2).size := by
          rw [v_setProperty, size_setProperty, h]
          cases r.size <;> rfl
        rw [List.foldl_cons, List.foldl_cons, ih _ _ _ hstep, size_setProperty]
  exact hprops props (r.nextValue now) _ _ rfl

/-- A recording that leaves the timestamp alone has the time it was made at. -/
theorem timestamp_newSample (now : Int) {props : List (String × Json)} (old : Sample)
    (h : "timestamp" ∉ props.map Prod.fst) :
    (Ressource.newSample now props old).timestamp = some now := by
  have hprops : ∀ (props : List (String × Json)) (s : Sample), "timestamp" ∉ props.map Prod.fst →
      s.lookup "timestamp" = some (.int now) →
      (props.foldl (fun s p => Json.insert p.1 p.2 s) s).lookup "timestamp" = some (.int now) := by
    intro props
    induction props with
    | nil => intro s _ hs; exact hs
    | cons p props ih =>
        intro s hnot hs
        rw [List.map_cons, List.mem_cons, not_or] at hnot
        rw [List.foldl_cons]
        exact ih _ hnot.2 ((Json.lookup_insert_of_ne p.2 s hnot.1).trans hs)
  have hlookup := hprops props _ h (Json.lookup_insert_self "timestamp" (.int now) old)
  unfold Sample.timestamp
  unfold Ressource.newSample
  rw [hlookup]

/-! ### The turns of a request -/

/-- The place of a series of the agent. -/
def slotOf (agent : Agent) : SeriesId → Option Slot
  | .service i key => (agent.services[i]?).map (fun s => .service s.id key)
  | .system collector res => some (.system collector res)

/-- The services have different identifiers. -/
def Distinct (agent : Agent) : Prop := (agent.services.map ServiceSeries.id).Nodup

/-- A later turn `b` keeps what the turn `a` read. -/
def Keeps : Turn → Turn → Prop
  | .clear _, _ => True
  | .read _ slot, .clear id => ∀ key, slot ≠ .service id key
  | .read _ slot, .read _ slot' => slot ≠ slot'

/-- The identifier a turn writes under is one of the services. -/
theorem mem_servicesTurns {t : Turn} {ss : List ServiceSeries} {i : Nat}
    (h : t ∈ servicesTurns i ss) : (∃ s ∈ ss, t = .clear s.id) ∨
      ∃ (j : Nat) (s : ServiceSeries) (key : SeriesKey), ss[j]? = some s ∧ key ∈ s.keys ∧
        t = .read (.service (i + j) key) (.service s.id key) := by
  induction ss generalizing i with
  | nil => simp [servicesTurns] at h
  | cons s ss ih =>
      rcases List.mem_append.mp h with h | h
      · rcases List.mem_cons.mp h with rfl | h
        · exact .inl ⟨s, List.mem_cons_self, rfl⟩
        · obtain ⟨key, hkey, rfl⟩ := List.mem_map.mp h
          exact .inr ⟨0, s, key, rfl, hkey, rfl⟩
      · rcases ih h with ⟨s', hs', rfl⟩ | ⟨j, s', key, hj, hkey, rfl⟩
        · exact .inl ⟨s', List.mem_cons_of_mem s hs', rfl⟩
        · refine .inr ⟨j + 1, s', key, hj, hkey, ?_⟩
          rw [Nat.add_right_comm, Nat.add_assoc]

theorem pairwise_serviceTurns (i : Nat) (s : ServiceSeries) :
    (serviceTurns i s).Pairwise Keeps := by
  refine List.pairwise_cons.mpr ⟨fun _ _ => trivial, List.pairwise_map.mpr ?_⟩
  exact s.nodup.imp fun hne heq => hne (Slot.service.inj heq).2

/-- No turn for a service touches what a turn for another one read. -/
theorem pairwise_servicesTurns {ss : List ServiceSeries} (i : Nat)
    (h : (ss.map ServiceSeries.id).Nodup) : (servicesTurns i ss).Pairwise Keeps := by
  induction ss generalizing i with
  | nil => exact List.Pairwise.nil
  | cons s ss ih =>
      obtain ⟨hnot, hrest⟩ := List.nodup_cons.mp h
      refine List.pairwise_append.mpr ⟨pairwise_serviceTurns i s, ih (i + 1) hrest, ?_⟩
      intro a ha b hb
      rcases List.mem_cons.mp ha with rfl | ha
      · trivial
      · obtain ⟨key, -, rfl⟩ := List.mem_map.mp ha
        rcases mem_servicesTurns hb with ⟨s', hs', rfl⟩ | ⟨j, s', key', hj, -, rfl⟩
        · intro key' heq
          exact hnot ((Slot.service.inj heq).1 ▸ List.mem_map_of_mem hs')
        · intro heq
          exact hnot ((Slot.service.inj heq).1 ▸ List.mem_map_of_mem (List.mem_of_getElem? hj))

/-- What a turn of a request reads, no later turn of it overwrites. -/
theorem pairwise_turns {agent : Agent} (h : Distinct agent) :
    (turns agent).Pairwise Keeps := by
  refine List.pairwise_append.mpr ⟨pairwise_servicesTurns 0 h, List.pairwise_map.mpr ?_, ?_⟩
  · exact agent.nodup.imp fun {a b} hne heq => hne (by
      obtain ⟨h1, h2⟩ := Slot.system.inj heq
      exact Prod.ext h1 h2)
  · intro a ha b hb
    obtain ⟨e, -, rfl⟩ := List.mem_map.mp hb
    rcases mem_servicesTurns ha with ⟨s, -, rfl⟩ | ⟨j, s, key, -, -, rfl⟩
    · trivial
    · intro heq
      exact Slot.noConfusion heq

/-- A turn reads a series into its own place. -/
theorem slotOf_of_mem_turns {agent : Agent} {series : SeriesId} {slot : Slot}
    (h : .read series slot ∈ turns agent) : slotOf agent series = some slot := by
  rcases List.mem_append.mp h with h | h
  · rcases mem_servicesTurns h with ⟨s, -, heq⟩ | ⟨j, s, key, hj, -, heq⟩
    · exact Turn.noConfusion heq
    · obtain ⟨rfl, rfl⟩ := Turn.read.inj heq
      rw [Nat.zero_add]
      show (agent.services[j]?).map _ = _
      rw [hj]
      rfl
  · obtain ⟨e, -, heq⟩ := List.mem_map.mp h
    obtain ⟨rfl, rfl⟩ := Turn.read.inj heq
    rfl

theorem mem_servicesTurns_of_getElem? {ss : List ServiceSeries} {j : Nat} {s : ServiceSeries}
    {key : SeriesKey} (i : Nat) (hj : ss[j]? = some s) (hkey : key ∈ s.keys) :
    .read (.service (i + j) key) (.service s.id key) ∈ servicesTurns i ss := by
  induction ss generalizing i j with
  | nil => simp at hj
  | cons s' ss ih =>
      cases j with
      | zero =>
          obtain rfl : s' = s := by simpa using hj
          exact List.mem_append_left _ (List.mem_cons_of_mem _ (List.mem_map_of_mem hkey))
      | succ j =>
          have hrest := ih (i + 1) (j := j) hj
          rw [Nat.add_right_comm, Nat.add_assoc] at hrest
          exact List.mem_append_right _ hrest

/-- A request reads every series of the agent. -/
theorem mem_turns_of_has {agent : Agent} {series : SeriesId} (h : agent.has series) :
    ∃ slot, .read series slot ∈ turns agent := by
  cases series with
  | service i key =>
      obtain ⟨s, hs, hkey⟩ := h
      have hmem := mem_servicesTurns_of_getElem? 0 hs hkey
      rw [Nat.zero_add] at hmem
      exact ⟨_, List.mem_append_left _ hmem⟩
  | system collector res =>
      exact ⟨_, List.mem_append_right _ (List.mem_map_of_mem (a := (collector, res)) h)⟩

/-- With different identifiers, different series have different places. -/
theorem slotOf_injective {agent : Agent} (h : Distinct agent) {a b : SeriesId} {slot : Slot}
    (ha : slotOf agent a = some slot) (hb : slotOf agent b = some slot) : a = b := by
  cases a with
  | service i key =>
      obtain ⟨s, hs, rfl⟩ := Option.map_eq_some_iff.mp ha
      cases b with
      | service j key' =>
          obtain ⟨s', hs', heq⟩ := Option.map_eq_some_iff.mp hb
          obtain ⟨hid, rfl⟩ := Slot.service.inj heq
          have hi : (agent.services.map ServiceSeries.id)[i]? = some s.id := by
            rw [List.getElem?_map, hs]
            rfl
          have hj : (agent.services.map ServiceSeries.id)[j]? = some s.id := by
            rw [List.getElem?_map, hs', ← hid]
            rfl
          have hlt := (List.getElem?_eq_some_iff.mp hi).1
          rw [(List.getElem?_inj hlt h).mp (hi.trans hj.symm)]
      | system c r => simp [slotOf] at hb
  | system c r =>
      obtain rfl : Slot.system c r = slot := Option.some.inj ha
      cases b with
      | service j key' => simp [slotOf] at hb
      | system c' r' =>
          obtain ⟨rfl, rfl⟩ := Slot.system.inj (Option.some.inj hb)
          rfl

/-- A new service does not move the others. -/
theorem slotOf_append {agent : Agent} {series : SeriesId} {slot : Slot}
    (s : ServiceSeries) (h : slotOf agent series = some slot) :
    slotOf { agent with services := agent.services ++ [s] } series = some slot := by
  cases series with
  | system c r => exact h
  | service i key =>
      obtain ⟨s', hs', heq⟩ := Option.map_eq_some_iff.mp h
      show ((agent.services ++ [s])[i]?).map _ = _
      rw [List.getElem?_append_left (List.getElem?_eq_some_iff.mp hs').1, hs', Option.map_some, heq]

/-! ### Following the samples -/

/-- A recorded sample whose series no request has read since: the number of newer samples
of the series, and whether a running request began after it. -/
structure Waiting where
  series : SeriesId
  newer : Nat
  sample : Sample
  old : Bool

/-- The agent, the samples ever recorded (the newest first), the waiting ones, those the
running request has read in time, and those that are due. -/
structure World where
  state : State
  recorded : SeriesId → List Sample
  waiting : List Waiting := []
  read : List (SeriesId × Sample) := []
  due : List (SeriesId × Sample) := []

/-- The sample stands in its series still. -/
def Waiting.inTime (w : World) (e : Waiting) : Bool :=
  e.newer < (w.state.store e.series).size

/-- What a recording does to the waiting samples. -/
def Waiting.pass (series : SeriesId) (e : Waiting) : Waiting :=
  if e.series = series then { e with newer := e.newer + 1 } else e

/-- One step of the agent, followed. -/
def follow (w : World) (a : Move) : World :=
  match a with
  | .record series props =>
      if w.state.agent.has series then
        let new := Ressource.newSample w.state.clock props ((w.state.store series).v.headD [])
        { w with
            state := step w.state a
            recorded := Function.update w.recorded series (new :: w.recorded series)
            waiting := ⟨series, 0, new, false⟩ :: w.waiting.map (Waiting.pass series) }
      else w
  | .poll =>
      if w.state.poll.isNone then
        { w with
            state := step w.state a
            waiting := w.waiting.map (fun e => { e with old := true }) }
      else w
  | .turn =>
      match w.state.poll.map Poll.todo with
      | none => w
      -- The reply is sent. A sample that waited all along is due too.
      | some [] =>
          { w with
              state := step w.state a
              waiting := w.waiting.filter (fun e => !e.old)
              read := []
              due := w.due ++ w.read ++
                (w.waiting.filter (fun e => e.old && e.inTime w)).map
                  (fun e => (e.series, e.sample)) }
      | some (.clear _ :: _) => { w with state := step w.state a }
      | some (.read series _ :: _) =>
          { w with
              state := step w.state a
              waiting := w.waiting.filter (fun e => e.series ≠ series)
              read := w.read ++ (w.waiting.filter (fun e => e.series = series && e.inTime w)).map
                (fun e => (e.series, e.sample)) }
  | _ => { w with state := step w.state a }

/-- An agent that has recorded nothing yet. -/
def start (agent : Agent) (clock : Nat) (size : SeriesId → Nat) : World where
  state := {
    agent, clock
    store := fun series => { typeName := "", size := size series } }
  recorded := fun _ => []

/-- Every sample that is due is in a reply, at the place of its series. -/
def Delivered (w : World) : Prop :=
  ∀ e ∈ w.due, ∃ r ∈ w.state.replies, ∃ slot, slotOf w.state.agent e.1 = some slot ∧
    e.2 ∈ r.series slot

/-- In every reply every series is in the order it was recorded. -/
def Ordered (w : World) : Prop :=
  ∀ r ∈ w.state.replies, ∀ series slot, slotOf w.state.agent series = some slot →
    (r.series slot).Sublist (w.recorded series).reverse

/-- All samples are delivered, and each reply is in order. -/
def Faithful (w : World) : Prop := Delivered w ∧ Ordered w

/-- A new service has an identifier of its own, and a recording leaves the timestamp of
its sample alone. -/
def Good (w : World) : Move → Prop
  | .addService s => s.id ∉ w.state.agent.services.map ServiceSeries.id
  | .record _ props => "timestamp" ∉ props.map Prod.fst
  | _ => True

instance : ∀ w a, Decidable (Good w a)
  | w, .addService s =>
      inferInstanceAs (Decidable (s.id ∉ w.state.agent.services.map ServiceSeries.id))
  | _, .record _ props => inferInstanceAs (Decidable ("timestamp" ∉ props.map Prod.fst))
  | _, .tick _ => inferInstanceAs (Decidable True)
  | _, .poll => inferInstanceAs (Decidable True)
  | _, .turn => inferInstanceAs (Decidable True)

instance (agent : Agent) : Decidable (Distinct agent) :=
  inferInstanceAs (Decidable (agent.services.map ServiceSeries.id).Nodup)

/-! ### The invariant -/

/-- The places of a reply: a series is in the order it was recorded, and no place is used
that belongs to no series. -/
structure Places (w : World) (f : Slot → List Sample) : Prop where
  ordered : ∀ series slot, slotOf w.state.agent series = some slot →
    (f slot).Sublist (w.recorded series).reverse
  foreign : ∀ slot, (∀ series, slotOf w.state.agent series ≠ some slot) → f slot = []

/-- A request between two turns: the turns done, with what they read in time, and the turns
to come, with the series of every sample that waited for it. -/
structure Running (w : World) (p : Poll) : Prop where
  since : p.since = w.state.since
  clock : p.timestamp ≤ w.state.clock
  split : ∃ done, turns w.state.agent = done ++ p.todo ∧
    ∀ e ∈ w.read, ∃ slot, .read e.1 slot ∈ done ∧ e.2 ∈ p.series slot
  waits : ∀ e ∈ w.waiting, e.old = true → ∃ slot, .read e.series slot ∈ p.todo
  places : Places w p.series

/-- A waiting sample: its place, its time, and its series. -/
structure Waits (w : World) (e : Waiting) : Prop where
  position : e.inTime w = true → (w.state.store e.series).v[e.newer]? = some e.sample
  recent : ∃ t : Int, e.sample.timestamp = some t ∧ w.state.since ≤ t ∧
    ∀ p, w.state.poll = some p → e.old = false → p.timestamp ≤ t
  known : w.state.agent.has e.series

structure Inv (w : World) : Prop where
  distinct : Distinct w.state.agent
  stored : ∀ series, (w.state.store series).v <+: w.recorded series
  waits : ∀ e ∈ w.waiting, Waits w e
  clock : w.state.since ≤ w.state.clock
  idle : w.state.poll = none → w.read = []
  running : ∀ p, w.state.poll = some p → Running w p
  replies : ∀ r ∈ w.state.replies, Places w r.series
  delivered : Delivered w

theorem Inv.faithful {w : World} (h : Inv w) : Faithful w :=
  ⟨h.delivered, fun r hr => (h.replies r hr).ordered⟩

theorem inv_start {agent : Agent} (h : Distinct agent) (clock : Nat) (size : SeriesId → Nat) :
    Inv (start agent clock size) where
  distinct := h
  stored := fun _ => List.nil_prefix
  waits := by simp [start]
  clock := by
    show (-1 : Int) ≤ (clock : Int)
    omega
  idle := fun _ => rfl
  running := by simp [start]
  replies := by simp [start]
  delivered := by simp [Delivered, start]

theorem inv_tick {w : World} (h : Inv w) (d : Nat) : Inv (follow w (.tick d)) := by
  have hclock : (w.state.clock : Int) ≤ ((w.state.clock + d : Nat) : Int) := by omega
  exact {
    distinct := h.distinct
    stored := h.stored
    waits := fun e he => ⟨(h.waits e he).position, (h.waits e he).recent, (h.waits e he).known⟩
    clock := Int.le_trans h.clock hclock
    idle := h.idle
    running := fun p hp =>
      let hr := h.running p hp
      ⟨hr.since, Int.le_trans hr.clock hclock, hr.split, hr.waits,
        ⟨hr.places.ordered, hr.places.foreign⟩⟩
    replies := fun r hr => ⟨(h.replies r hr).ordered, (h.replies r hr).foreign⟩
    delivered := h.delivered }

/-! ### A recording -/

/-- The order of a reply stands when a series grows. -/
theorem places_record {w w' : World} {f : Slot → List Sample} (h : Places w f)
    (hagent : w'.state.agent = w.state.agent) {series : SeriesId} {new : Sample}
    (hrec : w'.recorded = Function.update w.recorded series (new :: w.recorded series)) :
    Places w' f where
  ordered := by
    intro k slot hslot
    rw [hagent] at hslot
    rw [hrec]
    by_cases hk : k = series
    · subst hk
      rw [Function.update_self, List.reverse_cons]
      exact (h.ordered k slot hslot).trans (List.sublist_append_left _ _)
    · rw [Function.update_of_ne hk]
      exact h.ordered k slot hslot
  foreign := by
    intro slot hslot
    rw [hagent] at hslot
    exact h.foreign slot hslot

/-- A waiting sample moves down by one place, and is cut off when that is too far. -/
theorem waits_record {w w' : World} {series : SeriesId} {now : Int}
    {props : List (String × Json)} {e : Waiting} (h : Waits w e)
    (hagent : w'.state.agent = w.state.agent) (hsince : w'.state.since = w.state.since)
    (hpoll : w'.state.poll = w.state.poll)
    (hstore : w'.state.store
      = Function.update w.state.store series ((w.state.store series).record now props)) :
    Waits w' (e.pass series) := by
  have hseries : (e.pass series).series = e.series := by
    unfold Waiting.pass
    split <;> rfl
  have hsample : (e.pass series).sample = e.sample := by
    unfold Waiting.pass
    split <;> rfl
  have hold : (e.pass series).old = e.old := by
    unfold Waiting.pass
    split <;> rfl
  refine ⟨fun htime => ?_, ?_, ?_⟩
  · unfold Waiting.inTime at htime
    rw [hseries, hstore] at htime
    rw [hseries, hsample, hstore]
    by_cases heq : e.series = series
    · subst heq
      have hnewer : (e.pass e.series).newer = e.newer + 1 := by simp [Waiting.pass]
      rw [Function.update_self, size_record, hnewer] at htime
      rw [Function.update_self, v_record, hnewer]
      have hlt : e.newer + 1 < (w.state.store e.series).size := by simpa using htime
      rw [List.getElem?_take_of_lt hlt, List.getElem?_cons_succ]
      refine h.position ?_
      unfold Waiting.inTime
      simp only [decide_eq_true_eq]
      omega
    · have hnewer : (e.pass series).newer = e.newer := by simp [Waiting.pass, heq]
      rw [Function.update_of_ne heq, hnewer] at htime ⊢
      exact h.position htime
  · obtain ⟨t, ht, hle, hrun⟩ := h.recent
    refine ⟨t, hsample ▸ ht, hsince ▸ hle, fun p hp hnew => ?_⟩
    rw [hpoll] at hp
    rw [hold] at hnew
    exact hrun p hp hnew
  · rw [hseries, hagent]
    exact h.known

/-- The new sample is on top, at the time of the clock. -/
theorem waits_new {w w' : World} (h : Inv w) {series : SeriesId} {props : List (String × Json)}
    (hgood : "timestamp" ∉ props.map Prod.fst) (hhas : w.state.agent.has series)
    (hagent : w'.state.agent = w.state.agent) (hsince : w'.state.since = w.state.since)
    (hpoll : w'.state.poll = w.state.poll)
    (hstore : w'.state.store
      = Function.update w.state.store series ((w.state.store series).record w.state.clock props)) :
    Waits w' ⟨series, 0, Ressource.newSample w.state.clock props
      ((w.state.store series).v.headD []), false⟩ where
  position := by
    intro htime
    unfold Waiting.inTime at htime
    dsimp only at htime ⊢
    rw [hstore, Function.update_self] at htime ⊢
    rw [size_record] at htime
    have hlt : 0 < (w.state.store series).size := by simpa using htime
    rw [v_record, List.getElem?_take_of_lt hlt]
    rfl
  recent := by
    refine ⟨w.state.clock, timestamp_newSample _ _ hgood, hsince ▸ h.clock, fun p hp _ => ?_⟩
    rw [hpoll] at hp
    exact (h.running p hp).clock
  known := hagent ▸ hhas

theorem inv_record {w : World} (h : Inv w) {series : SeriesId} {props : List (String × Json)}
    (hgood : "timestamp" ∉ props.map Prod.fst) (hhas : w.state.agent.has series) :
    Inv (follow w (.record series props)) := by
  have hstep : step w.state (.record series props) = { w.state with
      store := Function.update w.state.store series
        ((w.state.store series).record w.state.clock props) } := if_pos hhas
  have hfollow : follow w (.record series props) = { w with
      state := step w.state (.record series props)
      recorded := Function.update w.recorded series
        (Ressource.newSample w.state.clock props ((w.state.store series).v.headD [])
          :: w.recorded series)
      waiting := ⟨series, 0, Ressource.newSample w.state.clock props
          ((w.state.store series).v.headD []), false⟩
        :: w.waiting.map (Waiting.pass series) } := if_pos hhas
  rw [hfollow, hstep]
  exact {
    distinct := h.distinct
    stored := by
      intro k
      dsimp only
      by_cases hk : k = series
      · subst hk
        rw [Function.update_self, Function.update_self, v_record]
        exact (List.take_prefix _ _).trans ((List.prefix_cons_inj _).mpr (h.stored k))
      · rw [Function.update_of_ne hk, Function.update_of_ne hk]
        exact h.stored k
    waits := by
      intro e he
      rcases List.mem_cons.mp he with rfl | he
      · exact waits_new h hgood hhas rfl rfl rfl rfl
      · obtain ⟨e₀, he₀, rfl⟩ := List.mem_map.mp he
        exact waits_record (h.waits e₀ he₀) rfl rfl rfl rfl
    clock := h.clock
    idle := h.idle
    running := by
      intro p hp
      have hr := h.running p hp
      refine ⟨hr.since, hr.clock, hr.split, fun e he hold => ?_, places_record hr.places rfl rfl⟩
      rcases List.mem_cons.mp he with rfl | he
      · exact absurd hold (by simp)
      · obtain ⟨e₀, he₀, rfl⟩ := List.mem_map.mp he
        unfold Waiting.pass at hold ⊢
        split at hold
        · rename_i heq
          rw [if_pos heq]
          exact hr.waits e₀ he₀ hold
        · rename_i heq
          rw [if_neg heq]
          exact hr.waits e₀ he₀ hold
    replies := fun r hr => places_record (h.replies r hr) rfl rfl
    delivered := h.delivered }

/-! ### A new service -/

theorem distinct_append {agent : Agent} (h : Distinct agent) {s : ServiceSeries}
    (hnew : s.id ∉ agent.services.map ServiceSeries.id) :
    Distinct { agent with services := agent.services ++ [s] } := by
  unfold Distinct
  rw [List.map_append]
  refine List.nodup_append.mpr ⟨h, by simp, fun a ha b hb heq => ?_⟩
  obtain rfl : b = s.id := by simpa using hb
  exact hnew (heq ▸ ha)

/-- A series of the agent before keeps its place, and the place of another one was never
used. -/
theorem places_addService {w w' : World} {f : Slot → List Sample} (h : Places w f)
    (hdistinct : Distinct w'.state.agent) {s : ServiceSeries}
    (hagent : w'.state.agent
      = { w.state.agent with services := w.state.agent.services ++ [s] })
    (hrec : w'.recorded = w.recorded) : Places w' f where
  ordered := by
    intro series slot hslot
    rw [hrec]
    by_cases hold : ∃ k, slotOf w.state.agent k = some slot
    · obtain ⟨k, hk⟩ := hold
      have hk' : slotOf w'.state.agent k = some slot := hagent ▸ slotOf_append s hk
      obtain rfl := slotOf_injective hdistinct hslot hk'
      exact h.ordered series slot hk
    · rw [h.foreign slot (fun k hk => hold ⟨k, hk⟩)]
      exact List.nil_sublist _
  foreign := by
    intro slot hslot
    refine h.foreign slot fun k hk => hslot k ?_
    rw [hagent]
    exact slotOf_append s hk

theorem has_append {agent : Agent} {series : SeriesId} (s : ServiceSeries)
    (h : agent.has series) :
    Agent.has { agent with services := agent.services ++ [s] } series := by
  cases series with
  | system c r => exact h
  | service i key =>
      obtain ⟨s', hs', hkey⟩ := h
      refine ⟨s', ?_, hkey⟩
      rw [List.getElem?_append_left (List.getElem?_eq_some_iff.mp hs').1, hs']

theorem inv_addService {w : World} (h : Inv w) {s : ServiceSeries}
    (hnew : s.id ∉ w.state.agent.services.map ServiceSeries.id) :
    Inv (follow w (.addService s)) := by
  have hdistinct := distinct_append h.distinct hnew
  show Inv { w with state := step w.state (.addService s) }
  cases hpoll : w.state.poll with
  | some p =>
      have hstep : step w.state (.addService s) = w.state := if_neg (by simp [hpoll])
      rw [hstep]
      exact h
  | none =>
      have hstep : step w.state (.addService s) = { w.state with
          agent := { w.state.agent with services := w.state.agent.services ++ [s] } } :=
        if_pos (by simp [hpoll])
      rw [hstep]
      exact {
        distinct := hdistinct
        stored := h.stored
        waits := fun e he =>
          let hw := h.waits e he
          ⟨hw.position, hw.recent, has_append s hw.known⟩
        clock := h.clock
        idle := h.idle
        running := fun p hp => by simp [hpoll] at hp
        replies := fun r hr => places_addService (h.replies r hr) hdistinct rfl rfl
        delivered := by
          intro e he
          obtain ⟨r, hr, slot, hslot, hmem⟩ := h.delivered e he
          exact ⟨r, hr, slot, slotOf_append s hslot, hmem⟩ }

/-! ### A request -/

/-- A request begins: every sample that waits will be read. -/
theorem inv_poll {w : World} (h : Inv w) : Inv (follow w .poll) := by
  unfold follow
  dsimp only
  split
  · rename_i hnone
    have hpoll : w.state.poll = none := by simpa using hnone
    have hstep : step w.state .poll = { w.state with
        poll := some {
          since := w.state.since
          timestamp := w.state.clock
          todo := turns w.state.agent
          series := fun _ => [] } } := if_pos hnone
    rw [hstep]
    exact {
      distinct := h.distinct
      stored := h.stored
      waits := by
        intro e he
        obtain ⟨e₀, he₀, rfl⟩ := List.mem_map.mp he
        have hw := h.waits e₀ he₀
        obtain ⟨t, ht, hle, -⟩ := hw.recent
        exact ⟨hw.position, ⟨t, ht, hle, fun _ _ hold => absurd hold (by simp)⟩, hw.known⟩
      clock := h.clock
      idle := fun hp => by simp at hp
      running := by
        intro p hp
        obtain rfl := Option.some.inj hp
        refine ⟨rfl, Int.le_refl _, ⟨[], rfl, ?_⟩, fun e he _ => ?_,
          ⟨fun _ _ _ => List.nil_sublist _, fun _ _ => rfl⟩⟩
        · show ∀ e ∈ w.read, _
          rw [h.idle hpoll]
          simp
        · obtain ⟨e₀, he₀, rfl⟩ := List.mem_map.mp he
          exact mem_turns_of_has (h.waits e₀ he₀).known
      replies := fun r hr => ⟨(h.replies r hr).ordered, (h.replies r hr).foreign⟩
      delivered := h.delivered }
  · exact h

/-- The reply is sent. No sample waited all along, since its series was read. -/
theorem inv_send {w : World} (h : Inv w) {p : Poll} (hpoll : w.state.poll = some p)
    (htodo : p.todo = []) : Inv (follow w .turn) := by
  have hr := h.running p hpoll
  obtain ⟨done, hdone, hread⟩ := hr.split
  rw [htodo, List.append_nil] at hdone
  have hold : ∀ e ∈ w.waiting, e.old = false := by
    intro e he
    by_contra hne
    obtain ⟨slot, hslot⟩ := hr.waits e he (by simpa using hne)
    rw [htodo] at hslot
    exact absurd hslot (by simp)
  have hstep : step w.state .turn = { w.state with
      since := p.timestamp
      poll := none
      replies := w.state.replies ++ [{ timestamp := p.timestamp, series := p.series }] } := by
    unfold step
    rw [hpoll]
    dsimp only
    rw [htodo]
  have hnone : w.waiting.filter (fun e => e.old && e.inTime w) = [] := by
    rw [List.filter_eq_nil_iff]
    intro e he
    simp [hold e he]
  have hfollow : follow w .turn = { w with
      state := step w.state .turn
      waiting := w.waiting.filter (fun e => !e.old)
      read := []
      due := w.due ++ w.read } := by
    unfold follow
    rw [hpoll, Option.map_some, htodo]
    dsimp only
    rw [hnone, List.map_nil, List.append_nil]
  rw [hfollow, hstep]
  exact {
    distinct := h.distinct
    stored := h.stored
    waits := by
      intro e he
      have he := (List.mem_filter.mp he).1
      have hw := h.waits e he
      -- The sample was recorded after the request began, so it is not older than its time.
      obtain ⟨t, ht, -, hrun⟩ := hw.recent
      exact ⟨hw.position, ⟨t, ht, hrun p hpoll (hold e he), fun _ hp => by simp at hp⟩, hw.known⟩
    clock := hr.clock
    idle := fun _ => rfl
    running := fun p hp => by simp at hp
    replies := by
      intro r hmem
      rcases List.mem_append.mp hmem with hmem | hmem
      · exact ⟨(h.replies r hmem).ordered, (h.replies r hmem).foreign⟩
      · obtain rfl := List.mem_singleton.mp hmem
        exact ⟨hr.places.ordered, hr.places.foreign⟩
    delivered := by
      intro e he
      rcases List.mem_append.mp he with he | he
      · obtain ⟨r, hmem, hrest⟩ := h.delivered e he
        exact ⟨r, List.mem_append_left _ hmem, hrest⟩
      · obtain ⟨slot, hslot, hmem⟩ := hread e he
        exact ⟨_, List.mem_append_right _ (List.mem_singleton_self _), slot,
          slotOf_of_mem_turns (hdone ▸ hslot), hmem⟩ }

/-- The turns before and after one turn of a running request. -/
theorem keeps_of_split {agent : Agent} (h : Distinct agent) {done todo : List Turn} {t : Turn}
    (hsplit : turns agent = done ++ t :: todo) {a : Turn} (ha : a ∈ done) : Keeps a t := by
  have hpair := pairwise_turns h
  rw [hsplit] at hpair
  exact (List.pairwise_append.mp hpair).2.2 a ha t List.mem_cons_self

/-- A turn of a request changes its poll only. -/
theorem step_turn {s : State} {p : Poll} (hpoll : s.poll = some p) {t : Turn} {todo : List Turn}
    (htodo : p.todo = t :: todo) :
    step s .turn = { s with poll := some (p.turn s.store todo t) } := by
  unfold step
  rw [hpoll]
  dsimp only
  rw [htodo]

/-- A sample waits on while a request makes a turn. -/
theorem waits_turn {w w' : World} {p p' : Poll} {e : Waiting} (h : Waits w e)
    (hpoll : w.state.poll = some p) (hstate : w'.state = { w.state with poll := some p' })
    (htime : p'.timestamp = p.timestamp) : Waits w' e := by
  obtain ⟨t, ht, hle, hrun⟩ := h.recent
  have hposition := h.position
  unfold Waiting.inTime at hposition
  refine ⟨?_, ⟨t, ht, ?_, ?_⟩, ?_⟩
  · unfold Waiting.inTime
    rw [hstate]
    exact hposition
  · rw [hstate]
    exact hle
  · intro q hq hnew
    rw [hstate] at hq
    obtain rfl := Option.some.inj hq
    rw [htime]
    exact hrun p hpoll hnew
  · rw [hstate]
    exact h.known

/-- The member of a service is emptied before its series are read. -/
theorem inv_clear {w : World} (h : Inv w) {p : Poll} (hpoll : w.state.poll = some p)
    {id : String} {todo : List Turn} (htodo : p.todo = .clear id :: todo) :
    Inv (follow w .turn) := by
  have hr := h.running p hpoll
  obtain ⟨done, hdone, hread⟩ := hr.split
  rw [htodo] at hdone
  have hstep := step_turn hpoll htodo
  have hfollow : follow w .turn = { w with state := step w.state .turn } := by
    unfold follow
    rw [hpoll, Option.map_some, htodo]
  rw [hfollow, hstep]
  -- A place is emptied, or it keeps what it held.
  have hplace : ∀ slot, (p.turn w.state.store todo (.clear id)).series slot = []
      ∨ (p.turn w.state.store todo (.clear id)).series slot = p.series slot := by
    intro slot
    unfold Poll.turn
    dsimp only
    split
    · split
      · exact .inl rfl
      · exact .inr rfl
    · exact .inr rfl
  have hkeep : ∀ slot, (∀ key, slot ≠ .service id key) →
      (p.turn w.state.store todo (.clear id)).series slot = p.series slot := by
    intro slot hne
    cases slot with
    | system c r => rfl
    | service id' key =>
        have hid : id' ≠ id := fun heq => hne key (heq ▸ rfl)
        exact if_neg hid
  exact {
    distinct := h.distinct
    stored := h.stored
    waits := fun e he => waits_turn (h.waits e he) hpoll rfl rfl
    clock := h.clock
    idle := fun hp => by simp at hp
    running := by
      intro p' hp'
      obtain rfl := Option.some.inj hp'
      refine ⟨hr.since, hr.clock, ⟨done ++ [.clear id], ?_, ?_⟩, ?_, ?_, ?_⟩
      · rw [List.append_assoc]
        exact hdone
      · intro e he
        obtain ⟨slot, hslot, hmem⟩ := hread e he
        have hne : Keeps (.read e.1 slot) (.clear id) :=
          keeps_of_split h.distinct hdone hslot
        exact ⟨slot, List.mem_append_left _ hslot, hkeep slot hne ▸ hmem⟩
      · intro e he hold
        obtain ⟨slot, hslot⟩ := hr.waits e he hold
        rw [htodo] at hslot
        exact ⟨slot, (List.mem_cons.mp hslot).resolve_left Turn.noConfusion⟩
      · intro series slot hslot
        rcases hplace slot with heq | heq
        · rw [heq]
          exact List.nil_sublist _
        · rw [heq]
          exact hr.places.ordered series slot hslot
      · intro slot hslot
        rcases hplace slot with heq | heq
        · exact heq
        · rw [heq]
          exact hr.places.foreign slot hslot
    replies := fun r hmem => ⟨(h.replies r hmem).ordered, (h.replies r hmem).foreign⟩
    delivered := h.delivered }

/-- A sample that waits in time is among those a request reads. -/
theorem mem_getHistory {w : World} {e : Waiting} (h : Waits w e) (htime : e.inTime w = true) :
    e.sample ∈ (w.state.store e.series).getHistory w.state.since := by
  obtain ⟨t, ht, hle, -⟩ := h.recent
  refine List.mem_filter.mpr ⟨List.mem_reverse.mpr (List.mem_of_getElem? (h.position htime)), ?_⟩
  unfold Sample.isSince
  rw [ht]
  simpa using hle

/-- A series is read into its place. -/
theorem inv_read {w : World} (h : Inv w) {p : Poll} (hpoll : w.state.poll = some p)
    {series : SeriesId} {slot : Slot} {todo : List Turn}
    (htodo : p.todo = .read series slot :: todo) : Inv (follow w .turn) := by
  have hr := h.running p hpoll
  obtain ⟨done, hdone, hread⟩ := hr.split
  rw [htodo] at hdone
  have hstep := step_turn hpoll htodo
  have hfollow : follow w .turn = { w with
      state := step w.state .turn
      waiting := w.waiting.filter (fun e => e.series ≠ series)
      read := w.read ++ (w.waiting.filter (fun e => e.series = series && e.inTime w)).map
        (fun e => (e.series, e.sample)) } := by
    unfold follow
    rw [hpoll, Option.map_some, htodo]
  rw [hfollow, hstep]
  have hmem : .read series slot ∈ turns w.state.agent := by
    rw [hdone]
    exact List.mem_append_right _ List.mem_cons_self
  have hslot := slotOf_of_mem_turns hmem
  have hself : (p.turn w.state.store todo (.read series slot)).series slot
      = (w.state.store series).getHistory w.state.since := by
    rw [← hr.since]
    exact Function.update_self _ _ _
  have hother : ∀ slot', slot' ≠ slot →
      (p.turn w.state.store todo (.read series slot)).series slot' = p.series slot' :=
    fun slot' hne => Function.update_of_ne hne _ _
  exact {
    distinct := h.distinct
    stored := h.stored
    waits := fun e he => waits_turn (h.waits e (List.mem_filter.mp he).1) hpoll rfl rfl
    clock := h.clock
    idle := fun hp => by simp at hp
    running := by
      intro p' hp'
      obtain rfl := Option.some.inj hp'
      refine ⟨hr.since, hr.clock, ⟨done ++ [.read series slot], ?_, ?_⟩, ?_, ?_, ?_⟩
      · rw [List.append_assoc]
        exact hdone
      · intro e he
        rcases List.mem_append.mp he with he | he
        · obtain ⟨slot', hslot', hmem'⟩ := hread e he
          have hne : Keeps (.read e.1 slot') (.read series slot) :=
            keeps_of_split h.distinct hdone hslot'
          exact ⟨slot', List.mem_append_left _ hslot', hother slot' hne ▸ hmem'⟩
        · obtain ⟨e₀, he₀, rfl⟩ := List.mem_map.mp he
          obtain ⟨hwait, hboth⟩ := List.mem_filter.mp he₀
          obtain ⟨rfl, htime⟩ : e₀.series = series ∧ e₀.inTime w = true := by simpa using hboth
          refine ⟨slot, List.mem_append_right _ (List.mem_singleton_self _), ?_⟩
          dsimp only
          rw [hself]
          exact mem_getHistory (h.waits e₀ hwait) htime
      · intro e he hold
        obtain ⟨hwait, hne⟩ := List.mem_filter.mp he
        obtain ⟨slot', hslot'⟩ := hr.waits e hwait hold
        rw [htodo] at hslot'
        refine ⟨slot', (List.mem_cons.mp hslot').resolve_left fun heq => ?_⟩
        exact absurd (Turn.read.inj heq).1 (by simpa using hne)
      · intro k slot' hk
        by_cases heq : slot' = slot
        · -- The series read is the only one of this place.
          subst heq
          obtain rfl := slotOf_injective h.distinct hk hslot
          rw [hself]
          exact List.filter_sublist.trans (List.reverse_sublist.mpr (h.stored k).sublist)
        · rw [hother slot' heq]
          exact hr.places.ordered k slot' hk
      · intro slot' hk
        have heq : slot' ≠ slot := fun heq => hk series (heq ▸ hslot)
        rw [hother slot' heq]
        exact hr.places.foreign slot' hk
    replies := fun r hmem => ⟨(h.replies r hmem).ordered, (h.replies r hmem).foreign⟩
    delivered := h.delivered }

theorem inv_turn {w : World} (h : Inv w) : Inv (follow w .turn) := by
  cases hpoll : w.state.poll with
  | none =>
      have hidle : follow w .turn = w := by
        unfold follow
        rw [hpoll]
        rfl
      rw [hidle]
      exact h
  | some p =>
      cases htodo : p.todo with
      | nil => exact inv_send h hpoll htodo
      | cons t todo =>
          cases t with
          | clear id => exact inv_clear h hpoll htodo
          | read series slot => exact inv_read h hpoll htodo

theorem inv_follow {w : World} {a : Move} (h : Inv w) (hgood : Good w a) : Inv (follow w a) := by
  cases a with
  | tick d => exact inv_tick h d
  | record series props =>
      by_cases hhas : w.state.agent.has series
      · exact inv_record h hgood hhas
      · have hidle : follow w (.record series props) = w := if_neg hhas
        rw [hidle]
        exact h
  | addService s => exact inv_addService h hgood
  | poll => exact inv_poll h
  | turn => exact inv_turn h

end Delivery

open Delivery

/-- As long as every service has an identifier of its own, and no property is named
`timestamp`, no sample is lost between the polls and all series are in order. -/
theorem always_faithful_of_meets (agent : Agent) (hdistinct : Distinct agent) (clock : Nat)
    (size : SeriesId → Nat) (as : List Move)
    (h : Meets follow Good (start agent clock size) as) :
    Always follow Faithful (start agent clock size) as :=
  always_of_meets (fun _ => Inv.faithful) (fun _ _ => inv_follow) (start agent clock size) as
    (inv_start hdistinct clock size) h

/-- The load of a service, at the identifier `id`. -/
def loadOf (id : String) : ServiceSeries where
  id
  keys := [.metric "cpu" "avg"]
  nodup := by simp

/-- An agent whose first service has the load, and whose second one has no series. -/
def loadAgent (id : String) : Agent where
  services := [loadOf "web-tcp_80", { id, keys := [], nodup := List.nodup_nil }]
  system := []
  nodup := List.nodup_nil

/-- The load is recorded, and a request of three turns is sent. -/
def loadRun : List Move :=
  [.tick 1000, .record (.service 0 (.metric "cpu" "avg")) [("avg1", .int 5)], .poll, .turn,
    .turn, .turn, .turn]

theorem always_faithful_load :
    Distinct (loadAgent "db-tcp_5432") ∧
      Meets follow Good (start (loadAgent "db-tcp_5432") 0 fun _ => 300) loadRun ∧
      Always follow Faithful (start (loadAgent "db-tcp_5432") 0 fun _ => 300) loadRun :=
  ⟨by decide, by decide,
    always_faithful_of_meets _ (by decide) 0 (fun _ => 300) loadRun (by decide)⟩

/-- Two services with one identifier: the second one empties the member of the first, and
the load is in no reply. -/
theorem sample_lost_same_id :
    ¬ Faithful (exec follow (start (loadAgent "web-tcp_80") 0 fun _ => 300) loadRun) := by
  rintro ⟨h, -⟩
  obtain ⟨r, hr, slot, hslot, hmem⟩ := h
    (.service 0 (.metric "cpu" "avg"), [("timestamp", .int 1000), ("avg1", .int 5)]) (.head _)
  obtain rfl := List.mem_singleton.mp hr
  obtain rfl := Option.some.inj hslot
  exact List.not_mem_nil hmem

end WatchedAgent.Proofs
