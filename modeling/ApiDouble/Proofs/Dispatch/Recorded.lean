import ApiDouble.Dispatch.Choice
import ApiDouble.Proofs.Contract.Header
import ApiDouble.Proofs.Dispatch.Target
import ApiDouble.Proofs.Uri.Instantiate

/-!
# Recorded requests find their exchange

The request that an exchange recorded can be sent again (`sentAgain`): its parameters make the
address, and its headers and its body are those recorded. For a plain pattern what dispatching
looks at is then the same on both sides (`ofRequest_sentAgain`):

* a parameter that is a variable goes into the path and is matched there,
* every other parameter goes into the query and is read there,
* headers that were read from comma-separated text are read again.

So whatever the dispatcher is, the criteria are the same, and an exchange with these criteria
answers the request, the first one if there are several.

Main results: `ofRequest_sentAgain`, `choose_sentAgain`.
-/

namespace ApiDouble.Dispatch

open Text Uri

/-- The request that an exchange recorded, sent again: its address is made from the parameters. -/
def sentAgain (op : Operation) (e : Exchange) : Request :=
  let start := Request.ofTarget op.method (instantiate op.pathPattern e.inbound.parameters)
  { e.inbound.headers.foldl (fun r h => r.addHeader h.name h.joined) start with
    body := e.inbound.content }

/-- What is asked of the parameters of an exchange so that they can be told apart in an address of a
plain pattern. -/
structure Addressable (segments : Pattern) (ps : List Parameter) : Prop where
  distinct : (ps.map (·.name)).Nodup
  unbraced : ∀ p ∈ ps, IsUnbraced p.name
  complete : ∀ name, .variable name ∈ segments → ∃ p ∈ ps, p.name.toList = name
  values : ∀ p ∈ ps, .variable p.name.toList ∈ segments → IsPathValue p.value

/-! ## The address -/

variable {op : Operation} {e : Exchange} {segments : Pattern}

theorem target_sentAgain (hpattern : op.pathPattern.toList = written segments)
    (hplain : ∀ s ∈ segments, s.IsPlain) (h : Addressable segments e.inbound.parameters)
    (method : String) :
    let r := Request.ofTarget method (instantiate op.pathPattern e.inbound.parameters)
    r.path = String.ofList (written (placed segments e.inbound.parameters)) ∧
      r.query = unplaced segments e.inbound.parameters := by
  obtain ⟨hquestion, haddress⟩ :=
    instantiate_written hpattern hplain h.unbraced h.distinct h.values
  by_cases hnil : unplaced segments e.inbound.parameters = []
  · rw [if_pos hnil] at haddress
    rw [hnil]
    exact ofTarget_of_not_mem hquestion method haddress
  · rw [if_neg hnil] at haddress
    exact ofTarget_append hquestion method haddress

/-! ## Parameters -/

theorem findList?_unplaced {ps : List Parameter} {name : String}
    (h : .variable name.toList ∉ segments) :
    SortedMap.findList? name ((unplaced segments ps).map fun p => (p.name, p.value)) =
      SortedMap.findList? name (ps.map fun p => (p.name, p.value)) := by
  unfold unplaced
  induction ps with
  | nil => rfl
  | cons p ps ih =>
    by_cases hp : .variable p.name.toList ∈ segments
    · have hne : ¬compare name p.name = .eq := by
        intro hc
        rw [Std.LawfulEqOrd.eq_of_compare hc] at h
        exact h hp
      rw [List.filter_cons_of_neg (by simpa using hp), ih, List.map_cons, SortedMap.findList?,
        if_neg hne]
    · rw [List.filter_cons_of_pos (by simpa using hp), List.map_cons, List.map_cons,
        SortedMap.findList?, SortedMap.findList?, ih]

theorem decode_valueOf? (ps : List Parameter) (name : String) :
    (valueOf? ps name.toList).map (fun value => String.ofList (decode value)) =
      SortedMap.findList? name (ps.map fun p => (p.name, p.value)) := by
  induction ps with
  | nil => rfl
  | cons p ps ih =>
    rw [List.map_cons, SortedMap.findList?]
    by_cases hc : compare name p.name = .eq
    · obtain rfl := Std.LawfulEqOrd.eq_of_compare hc
      rw [valueOf?_cons_self, if_pos hc, Option.map_some, decode_encodePath, String.ofList_toList]
    · have hne : name.toList ≠ p.name.toList := by
        intro he
        apply hc
        rw [String.toList_inj.1 he]
        exact Std.ReflCmp.compare_self
      rw [valueOf?_cons_of_ne hne, if_neg hc, ih]

/-- The parameters of the request are those recorded. -/
theorem paramsOf_sentAgain (hpattern : op.pathPattern.toList = written segments)
    (hplain : ∀ s ∈ segments, s.IsPlain) (h : Addressable segments e.inbound.parameters)
    {r : Request} (hpath : r.path = String.ofList (written (placed segments e.inbound.parameters)))
    (hquery : r.query = unplaced segments e.inbound.parameters) :
    paramsOf op.pathPattern r = firstOfEach e.inbound.parameters := by
  have hvalues : ∀ name, .variable name ∈ segments →
      ∃ value, valueOf? e.inbound.parameters name = some value ∧ '/' ∉ value := by
    intro name hname
    obtain ⟨p, hp, rfl⟩ := h.complete name hname
    cases hv : valueOf? e.inbound.parameters p.name.toList with
    | none =>
      have := List.find?_eq_none.1 (Option.map_eq_none_iff.1 hv) p hp
      simp at this
    | some value =>
      obtain ⟨q, hq, rfl⟩ := Option.map_eq_some_iff.1 hv
      have hqname : q.name.toList = p.name.toList := by simpa using List.find?_some hq
      refine ⟨_, rfl, fun hmem => ?_⟩
      exact (h.values q (List.mem_of_find?_eq_some hq) (hqname ▸ hname)).1
        (slash_mem_of_mem_encodePath hmem)
  have hpath' : r.path.toList =
      written (segments.map (Segment.fill (valueOf? e.inbound.parameters))) := by
    rw [hpath, String.toList_ofList]
    rfl
  obtain ⟨m, hm, hget⟩ := extract?_written hplain hpattern hpath' hvalues
  -- Name by name: a variable has its value from the path, any other name from the query.
  apply SortedMap.ext
  intro name
  show (SortedMap.ofListFirst (((extract? op.pathPattern r.path).getD .empty).toList ++
    r.query.map fun p => (p.name, p.value))).get? name = (SortedMap.ofListFirst _).get? name
  rw [SortedMap.get?_ofListFirst, SortedMap.get?_ofListFirst, SortedMap.findList?_append, hm,
    hquery]
  show (m.get? name).or _ = _
  rw [hget]
  by_cases hmem : .variable name.toList ∈ segments
  · obtain ⟨value, hvalue, -⟩ := hvalues _ hmem
    have hrecorded := decode_valueOf? e.inbound.parameters name
    rw [hvalue] at hrecorded
    rw [if_pos hmem, hvalue, ← hrecorded]
    rfl
  · rw [if_neg hmem, findList?_unplaced hmem]
    rfl

/-! ## Headers -/

theorem foldl_addHeader (hs : List Header) (r : Request) :
    hs.foldl (fun r h => r.addHeader h.name h.joined) r =
      { r with headers := r.headers ++ hs.map fun h => .ofCsv h.name h.joined } := by
  induction hs generalizing r with
  | nil => simp
  | cons h hs ih =>
    rw [List.foldl_cons, ih]
    simp [Request.addHeader]

/-- A header as it is read from comma-separated text. -/
def IsRead (h : Header) : Prop := ∃ csv, h = .ofCsv h.name csv

theorem isRead_ofCsv (name csv : String) : IsRead (.ofCsv name csv) := ⟨csv, rfl⟩

theorem ofCsv_of_isRead {h : Header} (hr : IsRead h) : .ofCsv h.name h.joined = h := by
  obtain ⟨csv, hcsv⟩ := hr
  rw [hcsv]
  exact Header.ofCsv_joined h.name csv

/-! ## Criteria -/

/-- **What dispatching looks at is the same on both sides.** -/
theorem ofRequest_sentAgain (hpattern : op.pathPattern.toList = written segments)
    (hplain : ∀ s ∈ segments, s.IsPlain) (h : Addressable segments e.inbound.parameters)
    (hheaders : ∀ h ∈ e.inbound.headers, IsRead h) :
    Input.ofRequest op.pathPattern (sentAgain op e) = Input.ofExchange e := by
  have hread : e.inbound.headers.map (fun h => .ofCsv h.name h.joined) = e.inbound.headers :=
    (List.map_congr_left fun h hh => ofCsv_of_isRead (hheaders h hh)).trans (List.map_id _)
  obtain ⟨hpath, hquery⟩ := target_sentAgain hpattern hplain h op.method
  unfold sentAgain Input.ofRequest Input.ofExchange
  simp only [foldl_addHeader, hread]
  -- Of the target only its path and its query matter.
  have hstart : (Request.ofTarget op.method
      (instantiate op.pathPattern e.inbound.parameters)).headers = [] := rfl
  generalize Request.ofTarget op.method (instantiate op.pathPattern e.inbound.parameters) = start
    at hpath hquery hstart
  rw [paramsOf_sentAgain hpattern hplain h (r := { start with
    headers := start.headers ++ e.inbound.headers, body := e.inbound.content }) hpath hquery,
    hstart, List.nil_append]

/-! ## The exchange that answers -/

theorem dispatcher_ne_none {i : Input} {c : String} (h : criteria? op i = some c) :
    op.dispatcher ≠ .none := by
  intro hnone
  unfold criteria? at h
  rw [hnone] at h
  cases h

theorem choose_of_criteria?_eq_some {r : Request} {c : String}
    (hr : criteria? op (.ofRequest op.pathPattern r) = some c) (he : e ∈ op.exchanges)
    (hc : criteria? op (.ofExchange e) = some c) :
    ∃ first, op.exchanges.find? (fun x => criteria? op (.ofExchange x) == some c) = some first ∧
      choose op r = .matched first := by
  have hfound :
      (op.exchanges.find? fun x => criteria? op (.ofExchange x) == some c).isSome = true := by
    rw [List.find?_isSome]
    exact ⟨e, he, by rw [hc]; exact beq_self_eq_true _⟩
  obtain ⟨first, hfirst⟩ := Option.isSome_iff_exists.1 hfound
  have hmatching : matching? op r = some first := by
    unfold matching?
    rw [hr]
    exact hfirst
  refine ⟨first, hfirst, ?_⟩
  rw [choose, if_neg (dispatcher_ne_none hc), hmatching]

/-- **A recorded request is answered by the first exchange with its criteria.** -/
theorem choose_sentAgain (hpattern : op.pathPattern.toList = written segments)
    (hplain : ∀ s ∈ segments, s.IsPlain) (he : e ∈ op.exchanges)
    (h : Addressable segments e.inbound.parameters)
    (hheaders : ∀ h ∈ e.inbound.headers, IsRead h) {c : String}
    (hc : criteria? op (.ofExchange e) = some c) :
    criteria? op (.ofRequest op.pathPattern (sentAgain op e)) = some c ∧
      ∃ first, op.exchanges.find? (fun x => criteria? op (.ofExchange x) == some c) = some first ∧
        choose op (sentAgain op e) = .matched first := by
  have hr : criteria? op (.ofRequest op.pathPattern (sentAgain op e)) = some c := by
    rw [ofRequest_sentAgain hpattern hplain h hheaders, hc]
  exact ⟨hr, choose_of_criteria?_eq_some hr he hc⟩

/-- A beer by its name, the country in the query. -/
def beerByName : Exchange :=
  .requestResponse
    { name := "weiss"
      content := none
      mediaType := none
      headers := [.ofCsv "Accept" "text/html, text/plain"]
      parameters := [⟨"name", "50% Weiß?"⟩, ⟨"country", "a/b&c=d e"⟩] }
    { name := "weiss", status := some "200", content := none, mediaType := none, headers := [] }

def beers : Operation :=
  { Operation.ofPath "GET" "/beer/{name}" with dispatcher := .uriParams, exchanges := [beerByName] }

theorem choose_beerByName :
    ∃ first, choose beers (sentAgain beers beerByName) = .matched first := by
  have hcriteria : criteria? beers (.ofExchange beerByName) =
      some "/name=50%25%20Wei%C3%9F%3F?country=a%2Fb%26c%3Dd+e" := by decide +kernel
  have haccept : ∀ h ∈ beerByName.inbound.headers, IsRead h := by
    intro h hh
    rw [List.mem_singleton.1 hh]
    exact isRead_ofCsv "Accept" "text/html, text/plain"
  have hpattern : beers.pathPattern.toList =
      written [.literal [], .literal "beer".toList, .variable "name".toList] := by decide
  obtain ⟨-, first, -, hfirst⟩ := choose_sentAgain hpattern
    (by simp [Segment.IsPlain, structural]) (List.mem_singleton.2 rfl)
    { distinct := by decide
      unbraced := by simp [IsUnbraced, beerByName, Exchange.inbound]
      complete := by simp [beerByName, Exchange.inbound]
      values := by simp [IsPathValue, beerByName, Exchange.inbound] }
    haccept hcriteria
  exact ⟨first, hfirst⟩

end ApiDouble.Dispatch
