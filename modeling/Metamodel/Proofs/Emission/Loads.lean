import Mathlib.Data.Finset.Card
import Metamodel.Emission.TemplateCache

/-!
# Loads of templates

Requests are made to one cache, one after another.  A request *loads* a template if its loader is run and gives a text.
The cache holds just the loads so far, no two of them of one name (`Holds`): a request keeps this (`Holds.serve`), and
so does a run of requests (`Holds.after`).  Hence loads are counted by their names, and what a request gets is the first
load of its name (`loads_of_any_requests`).
-/

namespace Metamodel.TemplateCache

/-- A request for the template of a name; `load` is what its loader gives if it is run. -/
structure Request where
  name : String
  load : Except Error String

/-- What comes of a request. -/
def serve (c : TemplateCache) (r : Request) : Fetch :=
  c.fetch r.name r.load

/-- The cache after a run of requests. -/
def after (c : TemplateCache) (rs : List Request) : TemplateCache :=
  rs.foldl (fun c r => (c.serve r).cache) c

/-- The name and the text of the template that a request loads. -/
def load? (c : TemplateCache) (r : Request) : Option (String × String) :=
  if (c.serve r).ran then r.load.toOption.map fun text => (r.name, text) else none

/-- The loads in a run of requests, the first one first. -/
def loadsIn (c : TemplateCache) : List Request → List (String × String)
  | [] => []
  | r :: rs => (c.load? r).toList ++ (c.serve r).cache.loadsIn rs

/-- The names that are loaded in a run of requests to a new cache. -/
def loadedNames (rs : List Request) : Finset String :=
  ((empty.loadsIn rs).map (·.1)).toFinset

/-- The cache holds these loads, which are of different names. -/
structure Holds (c : TemplateCache) (loads : List (String × String)) : Prop where
  get?_eq : ∀ name, c.get? name = loads.lookup name
  nodup : (loads.map (·.1)).Nodup
  size_eq : c.size = loads.length
  loads_eq : c.loads = loads.length

/-- What holds of a request to a cache that was new before the requests `before`, if it is followed by others. -/
structure Served (before : List Request) (r : Request) (later : List Request) : Prop where
  /-- What it gets is the first load of its name. -/
  text : ∀ text, ((empty.after before).serve r).answer = .ok text →
    (empty.loadsIn (before ++ r :: later)).lookup r.name = some text
  /-- Its loader is run just if its name has not been loaded before. -/
  ran : ((empty.after before).serve r).ran = true ↔ r.name ∉ loadedNames before
  /-- A loader that is not run does not matter. -/
  idle : r.name ∈ loadedNames before → ∀ load, (empty.after before).fetch r.name load = (empty.after before).serve r
  /-- It fails only with its loader, and then leaves the cache as it was. -/
  failure : ∀ e, ((empty.after before).serve r).answer = .error e →
    r.load = .error e ∧ empty.after (before ++ [r]) = empty.after before
  /-- After it has failed, a later request for its name runs its loader again, if all in between have failed, too. -/
  again : ∀ e between next, ((empty.after before).serve r).answer = .error e → next.name = r.name →
    (∀ q ∈ between, q.name = r.name → ∀ text, q.load ≠ .ok text) →
      ((empty.after (before ++ r :: between)).serve next).ran = true

variable {c : TemplateCache} {r : Request} {rs : List Request} {loads : List (String × String)} {name text : String}
  {e : Error}

/-! ### One request -/

/-- A request finds its template, or loads it, or fails with its loader and changes nothing. -/
private theorem serve_cases (c : TemplateCache) (r : Request) :
    (∃ text, c.get? r.name = some text ∧ c.load? r = none ∧ c.serve r = ⟨.ok text, false, c⟩) ∨
    (∃ text, c.get? r.name = none ∧ r.load = .ok text ∧ c.load? r = some (r.name, text) ∧
      c.serve r = ⟨.ok text, true, ⟨c.templates.insert r.name text, c.loads + 1⟩⟩) ∨
    (∃ e, c.get? r.name = none ∧ r.load = .error e ∧ c.load? r = none ∧ c.serve r = ⟨.error e, true, c⟩) := by
  unfold load? serve fetch
  rcases c.get? r.name with _ | text
  · rcases r.load with e | text
    · exact .inr (.inr ⟨e, rfl, rfl, rfl, rfl⟩)
    · exact .inr (.inl ⟨text, rfl, rfl, rfl, rfl⟩)
  · exact .inl ⟨text, rfl, rfl, rfl⟩

/-- A request changes the cache only by what it loads. -/
private theorem cache_serve_cases (c : TemplateCache) (r : Request) :
    c.load? r = none ∧ (c.serve r).cache = c ∨
    ∃ text, c.get? r.name = none ∧ r.load = .ok text ∧ c.load? r = some (r.name, text) ∧
      (c.serve r).cache = ⟨c.templates.insert r.name text, c.loads + 1⟩ := by
  rcases serve_cases c r with ⟨text, -, hnone, hserve⟩ | ⟨text, hget, hload, hsome, hserve⟩ | ⟨e, -, -, hnone, hserve⟩
  · exact .inl ⟨hnone, by rw [hserve]⟩
  · exact .inr ⟨text, hget, hload, hsome, by rw [hserve]⟩
  · exact .inl ⟨hnone, by rw [hserve]⟩

/-- What is in the cache is found whatever the loader would give. -/
private theorem fetch_of_get? (h : c.get? name = some text) (load : Except Error String) :
    c.fetch name load = ⟨.ok text, false, c⟩ := by
  unfold fetch
  rw [h]

private theorem ran_serve_iff : (c.serve r).ran = true ↔ c.get? r.name = none := by
  rcases serve_cases c r with ⟨text, hget, -, h⟩ | ⟨text, hget, -, -, h⟩ | ⟨e, hget, -, -, h⟩ <;> simp [h, hget]

/-- The text that a request gets is in the cache afterwards. -/
private theorem get?_serve_of_ok (h : (c.serve r).answer = .ok text) : (c.serve r).cache.get? r.name = some text := by
  rcases serve_cases c r with ⟨found, hget, -, hserve⟩ | ⟨loaded, hget, hload, -, hserve⟩ | ⟨e, -, -, -, hserve⟩
  · rw [hserve] at h ⊢
    exact hget.trans (congrArg some (Except.ok.inj h))
  · rw [hserve] at h
    rw [← Except.ok.inj h, serve, hload, get?_fetch_of_ok c r.name loaded hget]
  · rw [hserve] at h
    cases h

private theorem serve_of_error (h : (c.serve r).answer = .error e) :
    c.get? r.name = none ∧ r.load = .error e ∧ (c.serve r).cache = c := by
  rcases serve_cases c r with ⟨text, -, -, hserve⟩ | ⟨text, -, -, -, hserve⟩ | ⟨e', hget, hload, -, hserve⟩
  · rw [hserve] at h
    cases h
  · rw [hserve] at h
    cases h
  · rw [hserve] at h ⊢
    exact ⟨hget, hload.trans h, rfl⟩

/-- Nothing but a load of a name brings it into the cache. -/
private theorem get?_serve_of_fails (hnone : c.get? name = none) (hfails : r.name = name → ∀ text, r.load ≠ .ok text) :
    (c.serve r).cache.get? name = none := by
  rcases cache_serve_cases c r with ⟨-, hsame⟩ | ⟨text, -, hload, -, hgrown⟩
  · rw [hsame]
    exact hnone
  · have hne : name ≠ r.name := fun heq => hfails heq.symm text hload
    rw [hgrown]
    show (c.templates.insert r.name text).find? name = none
    rw [NameMap.find?_insert, if_neg hne]
    exact hnone

/-! ### Runs of requests -/

private theorem after_append (c : TemplateCache) (rs ss : List Request) : c.after (rs ++ ss) = (c.after rs).after ss :=
  List.foldl_append

private theorem after_cons (c : TemplateCache) (r : Request) (rs : List Request) :
    c.after (r :: rs) = (c.serve r).cache.after rs :=
  rfl

private theorem loadsIn_append (c : TemplateCache) (rs ss : List Request) :
    c.loadsIn (rs ++ ss) = c.loadsIn rs ++ (c.after rs).loadsIn ss := by
  induction rs generalizing c with
  | nil => rfl
  | cons r rs ih => rw [List.cons_append, loadsIn, loadsIn, ih, after_cons, List.append_assoc]

private theorem get?_after_of_fails (hnone : c.get? name = none)
    (hfails : ∀ q ∈ rs, q.name = name → ∀ text, q.load ≠ .ok text) : (c.after rs).get? name = none := by
  induction rs generalizing c with
  | nil => exact hnone
  | cons r rs ih =>
    rw [List.forall_mem_cons] at hfails
    exact ih (get?_serve_of_fails hnone hfails.1) hfails.2

/-! ### What the cache holds -/

private theorem lookup_eq_none_iff_not_mem : loads.lookup name = none ↔ name ∉ loads.map (·.1) := by
  rw [List.lookup_eq_none_iff, List.mem_map]
  constructor
  · rintro h ⟨load, hmem, rfl⟩
    simpa using h load hmem
  · intro h load hmem
    simpa using fun heq : name = load.1 => h ⟨load, hmem, heq.symm⟩

private theorem holds_empty : Holds empty [] where
  get?_eq _ := rfl
  nodup := List.nodup_nil
  size_eq := rfl
  loads_eq := rfl

/-- A load of a new name adds to what the cache holds. -/
theorem Holds.concat (h : c.Holds loads) (hnew : c.get? name = none) (text : String) :
    Holds ⟨c.templates.insert name text, c.loads + 1⟩ (loads ++ [(name, text)]) where
  get?_eq other := by
    show (c.templates.insert name text).find? other = _
    rw [NameMap.find?_insert, List.lookup_append, ← h.get?_eq]
    by_cases heq : other = name
    · simp [heq, hnew]
    · have hne : (other == name) = false := beq_eq_false_iff_ne.2 heq
      simp [heq, List.lookup_cons, hne, get?]
  nodup := by
    have hnot : name ∉ loads.map (·.1) := lookup_eq_none_iff_not_mem.1 (h.get?_eq name ▸ hnew)
    rw [List.map_append]
    exact List.concat_eq_append ▸ h.nodup.concat hnot
  size_eq := by
    show (c.templates.insert name text).size = _
    rw [NameMap.size_insert _ _ hnew, List.length_append]
    exact congrArg (· + 1) h.size_eq
  loads_eq := by
    rw [List.length_append]
    exact congrArg (· + 1) h.loads_eq

/-- After a request the cache also holds what the request has loaded. -/
theorem Holds.serve (h : c.Holds loads) (r : Request) : (c.serve r).cache.Holds (loads ++ (c.load? r).toList) := by
  rcases cache_serve_cases c r with ⟨hload, hsame⟩ | ⟨text, hnew, -, hload, hgrown⟩
  · rw [hload, hsame]
    simpa using h
  · rw [hload, hgrown]
    exact h.concat hnew text

/-- After a run of requests it holds all that these have loaded. -/
theorem Holds.after (h : c.Holds loads) (rs : List Request) : (c.after rs).Holds (loads ++ c.loadsIn rs) := by
  -- The first request changes the cache and its loads, so both vary.
  induction rs generalizing c loads with
  | nil =>
    rw [loadsIn, List.append_nil]
    exact h
  | cons r rs ih =>
    rw [loadsIn, ← List.append_assoc]
    exact ih (h.serve r)

private theorem holds_after (rs : List Request) : (empty.after rs).Holds (empty.loadsIn rs) :=
  holds_empty.after rs

private theorem card_loadedNames (rs : List Request) : (loadedNames rs).card = (empty.loadsIn rs).length := by
  rw [loadedNames, List.toFinset_card_of_nodup (holds_after rs).nodup, List.length_map]

private theorem get?_after_eq_none_iff : (empty.after rs).get? name = none ↔ name ∉ loadedNames rs := by
  rw [(holds_after rs).get?_eq, lookup_eq_none_iff_not_mem, loadedNames, List.mem_toFinset]

/-- What the cache has after some requests was loaded first, whatever comes later. -/
private theorem lookup_loadsIn_append (h : (empty.after rs).get? name = some text) (later : List Request) :
    (empty.loadsIn (rs ++ later)).lookup name = some text := by
  rw [(holds_after rs).get?_eq] at h
  rw [loadsIn_append, List.lookup_append, h, Option.some_or]

/-! ### What requests get -/

private theorem served (before : List Request) (r : Request) (later : List Request) : Served before r later where
  text text h := by
    have hcached : (empty.after (before ++ [r])).get? r.name = some text := by
      rw [after_append]
      exact get?_serve_of_ok h
    rw [← List.singleton_append, ← List.append_assoc]
    exact lookup_loadsIn_append hcached later
  ran := ran_serve_iff.trans get?_after_eq_none_iff
  idle hmem load := by
    have hsome : (empty.after before).get? r.name ≠ none := fun hnone => get?_after_eq_none_iff.1 hnone hmem
    obtain ⟨text, htext⟩ := Option.ne_none_iff_exists'.1 hsome
    rw [serve, fetch_of_get? htext, fetch_of_get? htext]
  failure e h := by
    obtain ⟨-, hload, hsame⟩ := serve_of_error h
    refine ⟨hload, ?_⟩
    rw [after_append]
    exact hsame
  again e between next h hname hfails := by
    -- The failed request is as if it had not been made, and those in between do not load the name.
    obtain ⟨hnone, -, hsame⟩ := serve_of_error h
    rw [ran_serve_iff, hname, after_append, after_cons, hsame]
    exact get?_after_of_fails hnone hfails

/-- Whatever is requested of a new cache, it counts as many loads and holds as many templates as names have been loaded;
and each request gets the first load of its name, runs its loader only if there was none before, and changes nothing if
it fails. -/
theorem loads_of_any_requests (rs : List Request) :
    (empty.after rs).loads = (loadedNames rs).card ∧ (empty.after rs).size = (loadedNames rs).card ∧
      ∀ before r later, rs = before ++ r :: later → Served before r later := by
  rw [card_loadedNames]
  exact ⟨(holds_after rs).loads_eq, (holds_after rs).size_eq, fun before r later _ => served before r later⟩

/-- The first request fails; the template of its name is loaded by the third one and found by the fourth. -/
def retries : List Request :=
  [⟨"finder", .error (.emission "missing")⟩, ⟨"class", .ok "class"⟩, ⟨"finder", .ok "old"⟩, ⟨"finder", .ok "new"⟩]

/-- The failure changes nothing and the third loader is run for it; the fourth is not run, and its text not used. -/
theorem loads_of_retries :
    (empty.after retries).loads = 2 ∧ (empty.after retries).size = 2 ∧
      empty.after [⟨"finder", .error (.emission "missing")⟩] = empty ∧
      ((empty.after (retries.take 2)).serve ⟨"finder", .ok "old"⟩).ran = true ∧
      ((empty.after (retries.take 3)).serve ⟨"finder", .ok "new"⟩).answer = .ok "old" ∧
      (empty.loadsIn retries).lookup "finder" = some "old" := by
  have hnames : (loadedNames retries).card = 2 := by decide +kernel
  obtain ⟨hloads, hsize, hserved⟩ := loads_of_any_requests retries
  have hfirst := hserved [] ⟨"finder", .error (.emission "missing")⟩ _ rfl
  have hfailed : (empty.serve ⟨"finder", .error (.emission "missing")⟩).answer = .error (.emission "missing") := rfl
  have hlast := hserved (retries.take 3) ⟨"finder", .ok "new"⟩ [] rfl
  have hfound : ((empty.after (retries.take 3)).serve ⟨"finder", .ok "new"⟩).answer = .ok "old" := by decide +kernel
  exact ⟨hloads.trans hnames, hsize.trans hnames, (hfirst.failure _ hfailed).2,
    hfirst.again _ [⟨"class", .ok "class"⟩] ⟨"finder", .ok "old"⟩ hfailed rfl (by simp),
    hfound, hlast.text _ hfound⟩

end Metamodel.TemplateCache
