import ApiDouble.Proofs.Dispatch.Choice
import ApiDouble.Proofs.Dispatch.Recorded
import ApiDouble.Proofs.Dispatch.Values
import ApiDouble.Proofs.Text.Labelled

/-!
# Dispatching by headers

The criteria are the values of the named headers, in the order of the rule, each behind the name of
its header in lower case. A header that was read from comma-separated text has one text for each set
of values, so the sets are equal if the texts are. But the texts stand in the criteria as they are.

**Apart** (`ToldApart`). Criteria are the same only for the same values if the rule has one name, if
the headers of one side have no `&`, or if no value on either side goes on like the next header.

**Confused** (`choose_filters`). Otherwise one value may take over a part of the next: `new` and
`name&b=age` under `a` and `b` are written like `new&b=name` and `age`.

Main result: `answers_queryHeader`.
-/

namespace ApiDouble

/-- An exchange of which only the headers matter. -/
def Exchange.ofHeaders (name : String) (hs : List Header) : Exchange :=
  .requestResponse
    { name, content := none, mediaType := none, headers := hs, parameters := [] }
    { name, status := none, content := none, mediaType := none, headers := [] }

namespace Dispatch

open Text

/-! ## The texts of headers -/

variable {names : List String} {hs gs : List Header} {es fs : List (List Char × List Char)}

/-- The texts of the headers with some names, each under its name, none if one is missing. -/
def headerEntries? (names : List String) (hs : List Header) :
    Option (List (List Char × List Char)) :=
  names.mapM fun name =>
    (Header.find? hs name).map fun h => (asciiLower name.toList, h.joined.toList)

theorem headerEntries?_cons (name : String) :
    headerEntries? (name :: names) hs =
      (Header.find? hs name).bind fun h => (headerEntries? names hs).map fun es =>
        (asciiLower name.toList, h.joined.toList) :: es := by
  unfold headerEntries?
  rw [List.mapM_cons]
  cases Header.find? hs name with
  | none => rfl
  | some h =>
    cases names.mapM fun name =>
      (Header.find? hs name).map fun h => (asciiLower name.toList, h.joined.toList) <;> rfl

theorem labels_headerEntries? (h : headerEntries? names hs = some es) :
    es.map (·.1) = names.map fun name => asciiLower name.toList := by
  induction names generalizing es with
  | nil =>
    cases h
    rfl
  | cons name names ih =>
    rw [headerEntries?_cons] at h
    obtain ⟨header, -, h⟩ := Option.bind_eq_some_iff.1 h
    obtain ⟨rest, hrest, rfl⟩ := Option.map_eq_some_iff.1 h
    rw [List.map_cons, List.map_cons, ih hrest]

theorem headerText?_eq_some_iff {text : List Char} :
    headerText? names hs = some text ↔
      ∃ es, headerEntries? names hs = some es ∧ es ≠ [] ∧
        '?' :: ['&'].intercalate (es.map fun e => e.1 ++ '=' :: e.2) = text := by
  have hparts : ∀ names : List String,
      (names.mapM fun name => do
        let header ← Header.find? hs name
        return asciiLower name.toList ++ '=' :: header.joined.toList) =
      (headerEntries? names hs).map (List.map fun e => e.1 ++ '=' :: e.2) := by
    intro names
    induction names with
    | nil => rfl
    | cons name names ih =>
      rw [headerEntries?_cons, List.mapM_cons, ih]
      cases Header.find? hs name with
      | none => rfl
      | some h => cases headerEntries? names hs <;> rfl
  unfold headerText?
  rw [hparts]
  cases headerEntries? names hs with
  | none => exact iff_of_false nofun (by rintro ⟨es, hes, -⟩; cases hes)
  | some es =>
    cases es with
    | nil => exact iff_of_false nofun (by rintro ⟨es, hes, hne, -⟩; cases hes; exact hne rfl)
    | cons e es => simp

/-! ## Equal texts -/

/-- Whether the headers of two sides can be told apart by their criteria. -/
def ToldApart (names : List String) (hs gs : List Header) : Prop :=
  ∀ es ∈ headerEntries? names hs, ∀ fs ∈ headerEntries? names gs, Apart '&' es fs

instance (names : List String) (hs gs : List Header) : Decidable (ToldApart names hs gs) :=
  inferInstanceAs (Decidable
    (∀ es ∈ headerEntries? names hs, ∀ fs ∈ headerEntries? names gs, Apart '&' es fs))

/-- Headers that can be told apart have the same text only if they are the same. -/
theorem exists_headerText?_iff (hne : names ≠ []) (hapart : ToldApart names hs gs) :
    (∃ text, headerText? names hs = some text ∧ headerText? names gs = some text) ↔
      ∀ name ∈ names, ∃ h ∈ Header.find? hs name, ∃ g ∈ Header.find? gs name,
        h.joined = g.joined := by
  -- `hapart` is what makes equal texts come from equal entries; the converse is free.
  have hentries : (∃ text, headerText? names hs = some text ∧ headerText? names gs = some text) ↔
      ∃ es, headerEntries? names hs = some es ∧ headerEntries? names gs = some es := by
    constructor
    · rintro ⟨text, h, h'⟩
      obtain ⟨es, hes, hnil, htext⟩ := headerText?_eq_some_iff.1 h
      obtain ⟨fs, hfs, hnil', htext'⟩ := headerText?_eq_some_iff.1 h'
      have hlabelled : labelled '&' es = labelled '&' fs := by
        rw [← cons_intercalate '&' hnil, ← cons_intercalate '&' hnil',
          List.tail_eq_of_cons_eq (htext.trans htext'.symm)]
      have hlabels := (labels_headerEntries? hes).trans (labels_headerEntries? hfs).symm
      obtain rfl := (hapart es hes fs hfs).eq hlabels hlabelled
      exact ⟨es, hes, hfs⟩
    · rintro ⟨es, hes, hes'⟩
      have hnil : es ≠ [] := by
        rintro rfl
        exact hne (List.map_eq_nil_iff.1 (labels_headerEntries? hes).symm)
      exact ⟨_, headerText?_eq_some_iff.2 ⟨es, hes, hnil, rfl⟩,
        headerText?_eq_some_iff.2 ⟨es, hes', hnil, rfl⟩⟩
  rw [hentries]
  unfold headerEntries?
  rw [exists_mapM_iff]
  refine forall₂_congr fun name _ => ?_
  simp only [Option.map_eq_some_iff]
  constructor
  · rintro ⟨_, ⟨h, hh, rfl⟩, g, hg, hsame⟩
    exact ⟨h, hh, g, hg, (String.toList_inj.1 (Prod.mk.inj hsame).2).symm⟩
  · rintro ⟨h, hh, g, hg, hsame⟩
    exact ⟨_, ⟨h, hh, rfl⟩, g, hg, by rw [hsame]⟩

theorem joined_eq_iff_of_isRead {h g : Header} (hh : IsRead h) (hg : IsRead g) :
    h.joined = g.joined ↔ h.values = g.values := by
  constructor
  · intro hsame
    rw [← ofCsv_of_isRead hh, ← ofCsv_of_isRead hg, hsame]
    rfl
  · intro hsame
    rw [Header.joined, Header.joined, hsame]

/-! ## The exchange that answers -/

variable {op : Operation} {r : Request}

/-- Whether an exchange recorded the values of the headers of a request. -/
def FitsHeaders (op : Operation) (r : Request) (e : Exchange) : Prop :=
  ∀ name ∈ ruleNames op.rule, ∃ h ∈ Header.find? r.headers name,
    ∃ g ∈ Header.find? e.inbound.headers name, h.values = g.values

instance (op : Operation) (r : Request) (e : Exchange) : Decidable (FitsHeaders op r e) :=
  inferInstanceAs (Decidable (∀ name ∈ ruleNames op.rule, ∃ h ∈ Header.find? r.headers name,
    ∃ g ∈ Header.find? e.inbound.headers name, h.values = g.values))

theorem sameCriteria_iff_fitsHeaders (h : op.dispatcher = .queryHeader)
    (hrule : ruleNames op.rule ≠ []) {e : Exchange} (hrequest : ∀ x ∈ r.headers, IsRead x)
    (hrecorded : ∀ x ∈ e.inbound.headers, IsRead x)
    (hapart : ToldApart (ruleNames op.rule) r.headers e.inbound.headers) :
    SameCriteria op r e ↔ FitsHeaders op r e := by
  unfold SameCriteria criteria?
  simp only [h, exists_ofList_iff]
  refine (exists_headerText?_iff hrule hapart).trans ?_
  refine forall₂_congr fun name _ => exists_congr fun x => and_congr_right fun hx =>
    exists_congr fun y => and_congr_right fun hy => ?_
  exact joined_eq_iff_of_isRead (hrequest x (List.mem_of_find?_eq_some hx))
    (hrecorded y (List.mem_of_find?_eq_some hy))

/-- **An operation that dispatches by headers answers with the first exchange that recorded the
values of the request's headers**, as long as values can be told apart. -/
theorem answers_queryHeader (h : op.dispatcher = .queryHeader) (hrule : ruleNames op.rule ≠ [])
    (hrequest : ∀ x ∈ r.headers, IsRead x)
    (hrecorded : ∀ e ∈ op.exchanges, ∀ x ∈ e.inbound.headers, IsRead x)
    (hapart : ∀ e ∈ op.exchanges, ToldApart (ruleNames op.rule) r.headers e.inbound.headers) :
    Answers op (FitsHeaders op r) (choose op r) :=
  answers_of_sameCriteria_iff h nofun fun e he =>
    sameCriteria_iff_fitsHeaders h hrule hrequest (hrecorded e he) (hapart e he)

/-- Tickets by two headers, the first of which holds a query of its own. -/
def tickets : Operation :=
  { Operation.ofPath "GET" "/tickets" with
    dispatcher := .queryHeader
    rule := some "X-Filter && x-sort"
    exchanges := [
      .ofHeaders "old" [.ofCsv "X-Sort" "age", .ofCsv "X-Filter" "state=old&size=2"],
      .ofHeaders "open" [.ofCsv "X-Filter" "mine, state=open&size=2", .ofCsv "X-Sort" "age"]] }

/-- A request for tickets. -/
def askTickets : Request :=
  (((Request.ofTarget "GET" "/tickets").addHeader "x-sort" "age,").addHeader "x-filter"
    " state=open&size=2,mine,mine").addHeader "X-FILTER" "mine"

theorem isRead_addHeader {name csv : String} (h : ∀ x ∈ r.headers, IsRead x) :
    ∀ x ∈ (r.addHeader name csv).headers, IsRead x :=
  List.forall_mem_append.2 ⟨h, List.forall_mem_singleton.2 (isRead_ofCsv name csv)⟩

theorem choose_tickets :
    choose tickets askTickets = .matched (.ofHeaders "open"
      [.ofCsv "X-Filter" "mine, state=open&size=2", .ofCsv "X-Sort" "age"]) := by
  have hrequest : ∀ x ∈ askTickets.headers, IsRead x :=
    isRead_addHeader (isRead_addHeader (isRead_addHeader nofun))
  have hrecorded : ∀ e ∈ tickets.exchanges, ∀ x ∈ e.inbound.headers, IsRead x := by
    simp [tickets, Exchange.ofHeaders, Exchange.inbound, isRead_ofCsv]
  refine (answers_queryHeader rfl (by decide +kernel) hrequest hrecorded
    (by decide +kernel)).unique (.matched ⟨?_, [_], [], rfl, ?_⟩)
  · decide +kernel
  · decide +kernel

/-- Items by two headers; the first value of the only one goes on like the second header. -/
def filters : Operation :=
  { Operation.ofPath "GET" "/items" with
    dispatcher := .queryHeader
    rule := some "x-filter && x-sort"
    exchanges := [.ofHeaders "recent"
      [.ofCsv "X-Filter" "new&x-sort=name", .ofCsv "X-Sort" "age"]] }

/-- A request for items whose second value goes on where that one does. -/
def askItems : Request :=
  ((Request.ofTarget "GET" "/items").addHeader "X-Filter" "new").addHeader "X-Sort"
    "name&x-sort=age"

/-- **Values that go on like the next header are confused.** The exchange that answers recorded
neither value of the request. -/
theorem choose_filters :
    filters.dispatcher = .queryHeader ∧ ruleNames filters.rule ≠ [] ∧
      (∀ x ∈ askItems.headers, IsRead x) ∧
      (∀ e ∈ filters.exchanges, ∀ x ∈ e.inbound.headers, IsRead x) ∧
      ¬Answers filters (FitsHeaders filters askItems) (choose filters askItems) := by
  refine ⟨rfl, by decide +kernel, isRead_addHeader (isRead_addHeader nofun), ?_, ?_⟩
  · simp [filters, Exchange.ofHeaders, Exchange.inbound, isRead_ofCsv]
  · have hchoose : choose filters askItems = .matched (.ofHeaders "recent"
        [.ofCsv "X-Filter" "new&x-sort=name", .ofCsv "X-Sort" "age"]) := by decide +kernel
    rw [hchoose]
    intro h
    cases h with
    | matched first => exact absurd first.1 (by decide +kernel)

end Dispatch

end ApiDouble
