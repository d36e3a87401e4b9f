import ApiDouble.Proofs.Collection.Lists
import ApiDouble.Proofs.Collection.SortedMap
import ApiDouble.Serve.Session

/-!
# The course of a served catalogue

Services are published and removed while requests are on their way. A request is counted in, its
service is looked up, and its outcome is counted, and anything may happen in between (`Step`,
`Run`). The history of a run keeps what was done and what was seen.

**What stands under a key** (`Stands`) is told by the history alone: the service that was published
last, unless it was removed since. The history leaves no choice (`Stands.unique`).

**The invariant** (`Sound`). The catalogue has what stands, the requests on their way are those that
started and did not end, each goes on with what it was started with, and the counters say how many
there were of each kind.

`Session.serve` is one way through the three steps of a request (`Run.serve`).

Main result: `history_of_run`.
-/

namespace ApiDouble.Serve

/-! ## Steps -/

/-- A request on its way, and what was found under its key once that was looked up. -/
structure Visit where
  ticket : Nat
  key : ServiceKey
  request : Request
  found? : Option (Option Service)

/-- A session and the requests on their way through it. -/
structure Traffic where
  session : Session := {}
  issued : Nat := 0
  visits : List Visit := []

/-- What was done, and what was seen of it. Requests are told apart by their tickets. -/
inductive Event
  | published (s : Service) (replaced : Option Service)
  | removed (key : ServiceKey) (taken : Option Service)
  | got (key : ServiceKey) (found : Option Service)
  | listed (keys : List ServiceKey)
  | started (ticket : Nat) (key : ServiceKey) (r : Request)
  | looked (ticket : Nat) (found : Option Service)
  | ended (ticket : Nat) (result : Except Miss Answer)

namespace Traffic

def setCatalogue (x : Traffic) (c : Catalogue) : Traffic :=
  { x with session := { x.session with catalogue := c } }

/-- A request comes in. -/
def start (x : Traffic) (key : ServiceKey) (r : Request) : Traffic where
  session := { x.session with counters := x.session.counters.start }
  issued := x.issued + 1
  visits := x.visits ++ [⟨x.issued, key, r, none⟩]

/-- The service of a request is looked up. -/
def look (x : Traffic) (v : Visit) : Traffic :=
  { x with visits := x.visits.map fun v' =>
      if v'.ticket = v.ticket then { v with found? := some (x.session.catalogue.get? v.key) }
      else v' }

/-- A request is through. -/
def finish (x : Traffic) (v : Visit) (result : Except Miss Answer) : Traffic where
  session := { x.session with counters := x.session.counters.finish result }
  issued := x.issued
  visits := x.visits.filter (·.ticket != v.ticket)

end Traffic

variable {σ : Type} {fs : Template.Functions (StateM σ)}

/-- One step. What templates draw from when a request ends (`w`) may have changed in any way. -/
inductive Step (fs : Template.Functions (StateM σ)) : Traffic → Event → Traffic → Prop
  | publish (x : Traffic) (s : Service) :
      Step fs x (.published s (x.session.catalogue.publish s).1)
        (x.setCatalogue (x.session.catalogue.publish s).2)
  | remove (x : Traffic) (key : ServiceKey) :
      Step fs x (.removed key (x.session.catalogue.remove key).1)
        (x.setCatalogue (x.session.catalogue.remove key).2)
  | get (x : Traffic) (key : ServiceKey) :
      Step fs x (.got key (x.session.catalogue.get? key)) x
  | list (x : Traffic) : Step fs x (.listed x.session.catalogue.keys) x
  | start (x : Traffic) (key : ServiceKey) (r : Request) :
      Step fs x (.started x.issued key r) (x.start key r)
  | look {x : Traffic} {v : Visit} (hv : v ∈ x.visits) (hnew : v.found? = none) :
      Step fs x (.looked v.ticket (x.session.catalogue.get? v.key)) (x.look v)
  | finish {x : Traffic} {v : Visit} {found : Option Service} (hv : v ∈ x.visits)
      (hfound : v.found? = some found) (w : σ) :
      Step fs x (.ended v.ticket (outcome fs v.key found v.request w).1)
        (x.finish v (outcome fs v.key found v.request w).1)

/-- Any number of steps from an empty catalogue. -/
inductive Run (fs : Template.Functions (StateM σ)) : List Event → Traffic → Prop
  | start : Run fs [] {}
  | step {history : List Event} {x x' : Traffic} {e : Event} (h : Run fs history x)
      (hstep : Step fs x e x') : Run fs (history ++ [e]) x'

/-! ## What stands under a key -/

/-- Whether an event publishes or removes what is under a key. -/
def Event.Touches (key : ServiceKey) : Event → Prop
  | published s _ => s.key = key
  | removed key' _ => key' = key
  | _ => False

/-- What a history leaves under a key: a service if its publication is the last event that touches
the key, nothing if each publication was followed by a removal. -/
def Stands (history : List Event) (key : ServiceKey) : Option Service → Prop
  | some s => s.key = key ∧ ∃ before replaced after,
      history = before ++ .published s replaced :: after ∧ ∀ e ∈ after, ¬e.Touches key
  | none => ∀ before s replaced after, history = before ++ .published s replaced :: after →
      s.key = key → ∃ taken, .removed key taken ∈ after

variable {history before : List Event} {key : ServiceKey} {found : Option Service} {e : Event}
  {x x' : Traffic} {v : Visit}

/-- A history leaves no choice. -/
theorem Stands.unique {found' : Option Service} (h : Stands history key found)
    (h' : Stands history key found') : found = found' := by
  cases found with
  | none =>
    cases found' with
    | none => rfl
    | some s' =>
      obtain ⟨hkey, before, replaced, after, rfl, hafter⟩ := h'
      obtain ⟨taken, hmem⟩ := h before s' replaced after rfl hkey
      exact absurd rfl (hafter _ hmem)
  | some s =>
    obtain ⟨hkey, before, replaced, after, rfl, hafter⟩ := h
    cases found' with
    | none =>
      obtain ⟨taken, hmem⟩ := h' before s replaced after rfl hkey
      exact absurd rfl (hafter _ hmem)
    | some s' =>
      obtain ⟨hkey', before', replaced', after', hsplit, hafter'⟩ := h'
      -- Of two publications the earlier one was touched by the later one, unless they are the same.
      rcases eq_or_mem_of_append_cons hsplit with heq | hmem | hmem
      · cases heq
        rfl
      · exact absurd hkey' (hafter _ hmem)
      · exact absurd hkey (hafter' _ hmem)

theorem stands_nil (key : ServiceKey) : Stands [] key none := by
  intro before s replaced after h
  simp at h

theorem stands_published (history : List Event) (s : Service) (replaced : Option Service) :
    Stands (history ++ [.published s replaced]) s.key (some s) :=
  ⟨rfl, history, replaced, [], rfl, by simp⟩

theorem stands_removed (history : List Event) (key : ServiceKey) (taken : Option Service) :
    Stands (history ++ [.removed key taken]) key none := by
  intro before s replaced after hsplit _
  rcases append_singleton_eq_append_cons hsplit with ⟨-, hlast⟩ | ⟨after', rfl, -⟩
  · cases hlast
  · exact ⟨taken, by simp⟩

/-- An event that does not touch a key leaves it as it is. -/
theorem Stands.append (h : Stands history key found) (he : ¬e.Touches key) :
    Stands (history ++ [e]) key found := by
  cases found with
  | some s =>
    obtain ⟨hkey, before, replaced, after, rfl, hafter⟩ := h
    refine ⟨hkey, before, replaced, after ++ [e], by simp, fun e' he' => ?_⟩
    rcases List.mem_append.1 he' with he' | he'
    · exact hafter e' he'
    · rw [List.mem_singleton.1 he']
      exact he
  | none =>
    intro before s replaced after hsplit hkey
    rcases append_singleton_eq_append_cons hsplit with ⟨-, rfl⟩ | ⟨after', rfl, rfl⟩
    · exact absurd hkey he
    · obtain ⟨taken, hmem⟩ := h before s replaced after' rfl hkey
      exact ⟨taken, by simp [hmem]⟩

/-! ## Who is on the way -/

namespace Event

/-- The request that an event is about. -/
def ticket? : Event → Option Nat
  | started ticket _ _ => some ticket
  | looked ticket _ => some ticket
  | ended ticket _ => some ticket
  | _ => none

/-- The request that an event starts. -/
def opens? : Event → Option Nat
  | started ticket _ _ => some ticket
  | _ => none

/-- The request that an event ends. -/
def closes? : Event → Option Nat
  | ended ticket _ => some ticket
  | _ => none

/-- Whether a request ends with an answer. -/
def isAnswered : Event → Bool
  | ended _ (.ok _) => true
  | _ => false

/-- Whether a request ends with none. -/
def isMissed : Event → Bool
  | ended _ (.error _) => true
  | _ => false

theorem ticket?_of_closes? {t : Nat} (h : e.closes? = some t) : e.ticket? = some t := by
  cases e <;> simp_all [closes?, ticket?]

theorem of_ticket?_eq_none (h : e.ticket? = none) :
    e.opens? = none ∧ e.closes? = none ∧ e.isAnswered = false ∧ e.isMissed = false := by
  cases e with
  | started | looked | ended => cases h
  | published | removed | got | listed => exact ⟨rfl, rfl, rfl, rfl⟩

end Event

/-- The requests that started and did not end. -/
def onTheirWay (history : List Event) : List Nat :=
  (history.filterMap Event.opens?).filter (· ∉ history.filterMap Event.closes?)

theorem onTheirWay_append (ho : e.opens? = none) (hc : e.closes? = none) :
    onTheirWay (history ++ [e]) = onTheirWay history := by
  simp [onTheirWay, List.filterMap_append, ho, hc]

theorem onTheirWay_started {t : Nat} {r : Request} (h : ∀ e ∈ history, e.ticket? ≠ some t) :
    onTheirWay (history ++ [.started t key r]) = onTheirWay history ++ [t] := by
  have ht : t ∉ history.filterMap Event.closes? := by
    intro hmem
    obtain ⟨e, he, hclose⟩ := List.mem_filterMap.1 hmem
    exact h e he (Event.ticket?_of_closes? hclose)
  simp only [onTheirWay, List.filterMap_append, List.filterMap_cons, List.filterMap_nil,
    Event.opens?, Event.closes?, List.append_nil, List.filter_append]
  rw [List.filter_cons_of_pos (by simpa using ht), List.filter_nil]

theorem onTheirWay_ended {t : Nat} {result : Except Miss Answer} :
    onTheirWay (history ++ [.ended t result]) = (onTheirWay history).filter (· != t) := by
  simp only [onTheirWay, List.filterMap_append, List.filterMap_cons, List.filterMap_nil,
    Event.opens?, Event.closes?, List.append_nil, List.filter_filter]
  congr 1
  funext u
  by_cases hu : u = t <;> simp [hu]

/-! ## What is seen -/

/-- What an event says of the history before it.

- What a publication replaces, a removal takes and a look-up finds is what stands under the key.
- A list of keys has those under which something stands, in strictly increasing order.
- A request goes on with what it was started with, is looked up once and ends once, with the outcome
  of what was found then. -/
def Faithful (fs : Template.Functions (StateM σ)) (before : List Event) : Event → Prop
  | .published s replaced => Stands before s.key replaced
  | .removed key taken => Stands before key taken
  | .got key found => Stands before key found
  | .listed keys => keys.Pairwise (compare · · = .lt) ∧
      ∀ key, key ∈ keys ↔ ∃ s, Stands before key (some s)
  | .started ticket _ _ => ∀ e ∈ before, e.ticket? ≠ some ticket
  | .looked ticket found => (∃ key r, .started ticket key r ∈ before ∧ Stands before key found) ∧
      ∀ found', .looked ticket found' ∉ before
  | .ended ticket result => (∃ key r found w, .started ticket key r ∈ before ∧
      .looked ticket found ∈ before ∧ result = (outcome fs key found r w).1) ∧
      ∀ result', .ended ticket result' ∉ before

/-! ## The invariant -/

/-- What a history says of a request that is on its way. -/
structure Pursued (history : List Event) (v : Visit) : Prop where
  started : .started v.ticket v.key v.request ∈ history
  looked : ∀ found, v.found? = some found → .looked v.ticket found ∈ history
  unlooked : v.found? = none → ∀ found, .looked v.ticket found ∉ history

theorem length_finish_visits (h : (x.visits.map (·.ticket)).Nodup) (hv : v ∈ x.visits)
    (result : Except Miss Answer) :
    (x.finish v result).visits.length + 1 = x.visits.length := by
  have hlength := List.length_erase_of_mem (List.mem_map_of_mem (f := (·.ticket)) hv)
  have hpos := List.length_pos_of_mem hv
  rw [h.erase_eq_filter, List.filter_map, List.length_map, List.length_map] at hlength
  exact (congrArg (· + 1) hlength).trans (Nat.sub_add_cancel hpos)

/-- What holds after every history. -/
structure Sound (history : List Event) (x : Traffic) : Prop where
  standing : ∀ key, Stands history key (x.session.catalogue.get? key)
  tickets : history.filterMap Event.opens? = List.range x.issued
  issued : ∀ e ∈ history, ∀ t, e.ticket? = some t → t < x.issued
  visits : x.visits.map (·.ticket) = onTheirWay history
  pursued : ∀ v ∈ x.visits, Pursued history v
  counted : x.session.counters = ⟨.ofNat x.issued, .ofNat (history.countP Event.isAnswered),
    .ofNat (history.countP Event.isMissed)⟩
  balance : x.issued =
    history.countP Event.isAnswered + history.countP Event.isMissed + x.visits.length

theorem sound_nil : Sound [] {} where
  standing key := stands_nil key
  tickets := rfl
  issued := by simp
  visits := rfl
  pursued := by simp
  counted := rfl
  balance := rfl

theorem Sound.nodup (h : Sound history x) : (x.visits.map (·.ticket)).Nodup := by
  rw [h.visits, onTheirWay, h.tickets]
  exact List.nodup_range.filter _

theorem Sound.issued_append {n : Nat} (h : Sound history x) (hn : x.issued ≤ n)
    (he : ∀ t, e.ticket? = some t → t < n) :
    ∀ e' ∈ history ++ [e], ∀ t, e'.ticket? = some t → t < n := by
  rw [List.forall_mem_append, List.forall_mem_singleton]
  exact ⟨fun e' he' t ht => Nat.lt_of_lt_of_le (h.issued e' he' t ht) hn, he⟩

theorem Sound.ticket_lt (h : Sound history x) (hv : v ∈ x.visits) : v.ticket < x.issued :=
  h.issued _ (h.pursued v hv).started _ rfl

theorem Pursued.append (h : Pursued history v) (he : ∀ found, e ≠ .looked v.ticket found) :
    Pursued (history ++ [e]) v where
  started := List.mem_append_left _ h.started
  looked found hfound := List.mem_append_left _ (h.looked found hfound)
  unlooked hfound found := by
    rw [List.mem_append, List.mem_singleton]
    rintro (hmem | heq)
    · exact h.unlooked hfound found hmem
    · exact he found heq.symm

/-- What only concerns the catalogue. -/
theorem Sound.quiet {c : Catalogue} (h : Sound history x) (he : e.ticket? = none)
    (hc : ∀ key, Stands (history ++ [e]) key (c.get? key)) :
    Sound (history ++ [e]) (x.setCatalogue c) := by
  obtain ⟨hopens, hcloses, hanswered, hmissed⟩ := Event.of_ticket?_eq_none he
  constructor
  case standing => exact hc
  case tickets => simpa [Traffic.setCatalogue, hopens] using h.tickets
  case issued =>
    refine h.issued_append (Nat.le_refl _) fun t ht => ?_
    rw [he] at ht
    cases ht
  case visits => rw [onTheirWay_append hopens hcloses]; exact h.visits
  case pursued =>
    intro v hv
    refine (h.pursued v hv).append fun found heq => ?_
    rw [heq] at he
    cases he
  case counted => simpa [Traffic.setCatalogue, hanswered, hmissed] using h.counted
  case balance => simpa [Traffic.setCatalogue, hanswered, hmissed] using h.balance

/-- What changes what is under one key. -/
theorem Sound.changed {c : Catalogue} {new : Option Service} (h : Sound history x)
    (he : e.ticket? = none) (htouches : ∀ key', e.Touches key' → key' = key)
    (hnew : Stands (history ++ [e]) key new)
    (hget : ∀ key', c.get? key' =
      if compare key' key = .eq then new else x.session.catalogue.get? key') :
    Sound (history ++ [e]) (x.setCatalogue c) := by
  refine h.quiet he fun key' => ?_
  rw [hget]
  split
  · next heq =>
    cases Std.LawfulEqOrd.eq_of_compare heq
    exact hnew
  · next hne =>
    refine (h.standing key').append fun htouch => hne ?_
    rw [htouches key' htouch]
    exact Std.ReflCmp.compare_self

theorem Sound.published (h : Sound history x) (s : Service) (replaced : Option Service) :
    Sound (history ++ [.published s replaced])
      (x.setCatalogue (x.session.catalogue.publish s).2) :=
  h.changed rfl (fun _ => Eq.symm) (stands_published history s replaced)
    fun _ => SortedMap.get?_insert

theorem Sound.removed (h : Sound history x) (key : ServiceKey) (taken : Option Service) :
    Sound (history ++ [.removed key taken])
      (x.setCatalogue (x.session.catalogue.remove key).2) :=
  h.changed rfl (fun _ => Eq.symm) (stands_removed history key taken) fun _ => SortedMap.get?_erase

/-- What is only seen. -/
theorem Sound.seen (h : Sound history x) (he : e.ticket? = none) (hkeep : ∀ key, ¬e.Touches key) :
    Sound (history ++ [e]) x :=
  h.quiet he fun key => (h.standing key).append (hkeep key)

theorem Sound.started (h : Sound history x) (key : ServiceKey) (r : Request) :
    Sound (history ++ [.started x.issued key r]) (x.start key r) where
  standing key' := (h.standing key').append id
  tickets := by simp [Event.opens?, h.tickets, Traffic.start, List.range_succ]
  issued := by
    refine h.issued_append (Nat.le_succ _) fun t ht => ?_
    cases ht
    exact Nat.lt_succ_self _
  visits := by
    rw [onTheirWay_started fun e he ht => Nat.lt_irrefl _ (h.issued e he _ ht), ← h.visits]
    simp [Traffic.start]
  pursued := by
    intro v hv
    rcases List.mem_append.1 hv with hv | hv
    · exact (h.pursued v hv).append fun found heq => by cases heq
    · cases List.mem_singleton.1 hv
      refine ⟨by simp, by simp, fun _ found hmem => ?_⟩
      rcases List.mem_append.1 hmem with hmem | hmem
      · exact Nat.lt_irrefl _ (h.issued _ hmem _ rfl)
      · cases List.mem_singleton.1 hmem
  counted := by
    simp [Traffic.start, Counters.start, h.counted, Event.isAnswered, Event.isMissed]
  balance := by
    simp [Traffic.start, Event.isAnswered, Event.isMissed, h.balance]
    omega

theorem Sound.looked (h : Sound history x) (hv : v ∈ x.visits) :
    Sound (history ++ [.looked v.ticket (x.session.catalogue.get? v.key)]) (x.look v) where
  standing key := (h.standing key).append id
  tickets := by simpa [Event.opens?, List.filterMap_cons, Traffic.look] using h.tickets
  issued := by
    refine h.issued_append (Nat.le_refl _) fun t ht => ?_
    cases ht
    exact h.ticket_lt hv
  visits := by
    rw [onTheirWay_append rfl rfl, ← h.visits, Traffic.look, List.map_map]
    refine List.map_congr_left fun v' _ => ?_
    simp only [Function.comp]
    split
    · next heq => exact heq.symm
    · rfl
  pursued := by
    intro v' hv'
    obtain ⟨u, hu, rfl⟩ := List.mem_map.1 hv'
    split
    · exact ⟨List.mem_append_left _ (h.pursued v hv).started, by simp, by simp⟩
    · next hne =>
      refine (h.pursued u hu).append fun found heq => hne ?_
      injection heq with ht
      exact ht.symm
  counted := by simpa [Event.isAnswered, Event.isMissed, Traffic.look] using h.counted
  balance := by simpa [Event.isAnswered, Event.isMissed, Traffic.look] using h.balance

theorem Sound.ended (h : Sound history x) (hv : v ∈ x.visits) (result : Except Miss Answer) :
    Sound (history ++ [.ended v.ticket result]) (x.finish v result) where
  standing key := (h.standing key).append id
  tickets := by simpa [Event.opens?, List.filterMap_cons, Traffic.finish] using h.tickets
  issued := by
    refine h.issued_append (Nat.le_refl _) fun t ht => ?_
    cases ht
    exact h.ticket_lt hv
  visits := by
    rw [onTheirWay_ended, ← h.visits, Traffic.finish, List.filter_map]
    rfl
  pursued := by
    intro v' hv'
    exact (h.pursued v' (List.mem_filter.1 hv').1).append fun found heq => by cases heq
  counted := by
    cases result <;>
      simp [Traffic.finish, Counters.finish, h.counted, Event.isAnswered, Event.isMissed]
  balance := by
    have hlength := length_finish_visits h.nodup hv result
    have hbalance := h.balance
    cases result <;> simp [Event.isAnswered, Event.isMissed] <;> simp only [Traffic.finish] at * <;>
      omega

/-- A step keeps the invariant, and what is seen in it is what the history says. -/
theorem Sound.step (h : Sound history x) (hstep : Step fs x e x') :
    Sound (history ++ [e]) x' ∧ Faithful fs history e := by
  cases hstep with
  | publish s => exact ⟨h.published s _, h.standing s.key⟩
  | remove key => exact ⟨h.removed key _, h.standing key⟩
  | get key => exact ⟨h.seen rfl fun _ => id, h.standing key⟩
  | list =>
    refine ⟨h.seen rfl fun _ => id, List.pairwise_map.2 x.session.catalogue.increasing,
      fun key => ?_⟩
    rw [SortedMap.mem_keys]
    refine exists_congr fun s => ⟨fun hs => hs ▸ h.standing key, fun hs => ?_⟩
    exact (h.standing key).unique hs
  | start key r =>
    exact ⟨h.started key r, fun e he ht => Nat.lt_irrefl _ (h.issued e he _ ht)⟩
  | look hv hnew =>
    have hp := h.pursued _ hv
    exact ⟨h.looked hv, ⟨_, _, hp.started, h.standing _⟩, hp.unlooked hnew⟩
  | finish hv hfound w =>
    have hp := h.pursued _ hv
    refine ⟨h.ended hv _, ⟨_, _, _, w, hp.started, hp.looked _ hfound, rfl⟩, fun result' hmem => ?_⟩
    -- The request is still on its way, so the history has not ended it.
    have hway : _ ∈ onTheirWay history := h.visits ▸ List.mem_map_of_mem hv
    have hclosed : _ ∈ history.filterMap Event.closes? := List.mem_filterMap.2 ⟨_, hmem, rfl⟩
    exact (by simpa using (List.mem_filter.1 hway).2 : _ ∉ _) hclosed

theorem sound_of_run (h : Run fs history x) : Sound history x := by
  induction h with
  | start => exact sound_nil
  | step _ hstep ih => exact (ih.step hstep).1

theorem faithful_of_run {after : List Event} (h : Run fs history x)
    (hsplit : history = before ++ e :: after) : Faithful fs before e := by
  induction h generalizing after with
  | start => simp at hsplit
  | step hrun hstep ih =>
    rcases append_singleton_eq_append_cons hsplit with ⟨rfl, rfl⟩ | ⟨after', rfl, rfl⟩
    · exact ((sound_of_run hrun).step hstep).2
    · exact ih rfl

theorem mem_look_visits (hv : v ∈ x.visits) :
    { v with found? := some (x.session.catalogue.get? v.key) } ∈ (x.look v).visits :=
  List.mem_map.2 ⟨v, hv, if_pos rfl⟩

/-- Serving a request from start to end is one way through the steps. -/
theorem Run.serve (h : Run fs history x) (key : ServiceKey) (r : Request) (w : σ) :
    ∃ x', x'.session = (x.session.serve fs key r w).1.2 ∧
      Run fs (history ++ [.started x.issued key r,
        .looked x.issued (x.session.catalogue.get? key),
        .ended x.issued (x.session.serve fs key r w).1.1]) x' := by
  have hstarted := h.step (.start x key r)
  have hcoming : ⟨x.issued, key, r, none⟩ ∈ (x.start key r).visits := by simp [Traffic.start]
  have hlooked := hstarted.step (.look hcoming rfl)
  have hended := hlooked.step (.finish (mem_look_visits hcoming) rfl w)
  rw [List.append_assoc, List.append_assoc] at hended
  exact ⟨_, rfl, hended⟩

/-! ## Main result -/

/-- **In every run each thing that is seen is what the history before it says, and the counters say
how many requests there were of each kind.** -/
theorem history_of_run (h : Run fs history x) :
    (∀ before e after, history = before ++ e :: after → Faithful fs before e) ∧
      x.session.counters.total = x.session.counters.matched + x.session.counters.unmatched +
        .ofNat (onTheirWay history).length ∧
      x.session.counters.matched = .ofNat (history.countP Event.isAnswered) ∧
      x.session.counters.unmatched = .ofNat (history.countP Event.isMissed) := by
  have hsound := sound_of_run h
  refine ⟨fun before e after hsplit => faithful_of_run h hsplit, ?_, ?_, ?_⟩
  · rw [← hsound.visits, List.length_map, hsound.counted, hsound.balance, UInt64.ofNat_add,
      UInt64.ofNat_add]
  · rw [hsound.counted]
  · rw [hsound.counted]

/-- A service that is published without operations, and once more with one. -/
def orders : Service := ⟨"Orders", "1.0", .rest, []⟩

def laterOrders : Service :=
  { orders with operations := [{ Operation.ofPath "GET" "/orders" with
      exchanges := [.requestResponse ⟨"all", none, none, [], []⟩
        ⟨"all", none, none, none, []⟩] }] }

/-- The service is published once more before the request looks it up, and removed before the
request ends. -/
def ordersHistory : List Event :=
  [.published orders none, .started 0 orders.key (.ofTarget "GET" "/orders"),
    .published laterOrders (some orders), .looked 0 (some laterOrders),
    .removed orders.key (some laterOrders), .ended 0 (.ok ⟨200, [], none, none, "all", false⟩)]

theorem run_orders : ∃ x, Run (σ := Unit) (fun _ => none) ordersHistory x := by
  have hpublished := Run.start.step (@Step.publish Unit (fun _ => none) _ orders)
  have hstarted := hpublished.step (.start _ orders.key (.ofTarget "GET" "/orders"))
  have hagain := hstarted.step (.publish _ laterOrders)
  have hlooked := hagain.step (.look (List.mem_singleton.2 rfl) rfl)
  have hremoved := hlooked.step (.remove _ orders.key)
  have hended := hremoved.step (.finish (List.mem_singleton.2 rfl) rfl ())
  exact ⟨_, hended⟩

/-- The request is answered by the service that stood when it was looked up. -/
theorem history_of_orders : ∃ x, Run (σ := Unit) (fun _ => none) ordersHistory x ∧
    Stands (ordersHistory.take 3) orders.key (some laterOrders) ∧
    x.session.counters.total = 1 ∧ x.session.counters.matched = 1 ∧
    x.session.counters.unmatched = 0 := by
  obtain ⟨x, hrun⟩ := run_orders
  obtain ⟨hfaithful, htotal, hmatched, hunmatched⟩ := history_of_run hrun
  have hlooked := hfaithful (ordersHistory.take 3) _ (ordersHistory.drop 4) rfl
  obtain ⟨⟨key, r, hstarted, hstands⟩, -⟩ := hlooked
  have hkey : key = orders.key ∧ r = .ofTarget "GET" "/orders" := by
    simpa [ordersHistory] using hstarted
  refine ⟨x, hrun, hkey.1 ▸ hstands, ?_, hmatched, hunmatched⟩
  rw [htotal, hmatched, hunmatched]
  rfl

end ApiDouble.Serve
