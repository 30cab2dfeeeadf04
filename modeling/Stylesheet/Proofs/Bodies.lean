/-
The bodies in a descriptor.

* `Site`: a body, where it is written, and the location that errors in it give;
* `Site.ofQueries`: the bodies of media queries, which are counted in two ways;
* `Site.inside`, `Descriptor.Has`: the bodies right inside of a body, and all bodies in a
  descriptor;
* `Has.reports`: a body is written in the descriptor at its location, and reported at the location
  in which absent items do not count;
* `Descriptor.findings`: what is wrong with the payloads of a body;
* `Descriptor.locates_of_mem_findings`: findings are in the body, or at keys that are missing in it.

The list that a query is read from has absent items, which count in the faults of the query. The
list that its body is built from has none.
-/
import Stylesheet.Proofs.Payload.Findings

namespace Stylesheet

/-! ### Bodies -/

/-- A body, where it is written, and the location that errors in it give. -/
structure Site where
  written : Location
  reported : Location
  body : Descriptor

namespace Site

/-- A body in a part of a value, as one in the value. -/
def under (written reported : Location) (s : Site) : Site :=
  ⟨written ++ s.written, reported ++ s.reported, s.body⟩

/-- The body that a mapping is. -/
def ofBlock (value : Value) : List Site :=
  value.block?.toList.map fun body => ⟨[], [], body⟩

/-- The bodies under some keys of a mapping. -/
def ofEntries (among : String → Bool) (entries : List (String × Value)) : List Site :=
  (entries.filter fun e => among e.1).flatMap fun e =>
    (ofBlock e.2).map (under [.key e.1] [.key e.1])

/-- The bodies of the queries in a list, after `i` items of which `j` are there. They are written at
the position of their query among all items, and reported at that among those that are there. -/
def ofQueries : Nat → Nat → List Value → List Site
  | _, _, [] => []
  | i, j, .absent :: rest => ofQueries (i + 1) j rest
  | i, j, .block entries :: rest =>
    (ofEntries (· == MediaQuery.cssKey) entries).map (under [.item i] [.item j])
      ++ ofQueries (i + 1) (j + 1) rest
  | i, j, _ :: rest => ofQueries (i + 1) (j + 1) rest

/-- The bodies in the value of an entry: those of mixins, of media queries and of rules. Only a key
under `&` is a rule in a body that is not at the top. -/
def ofEntry (top : Bool) (key : String) (value : Value) : List Site :=
  match Directive.Reserved.ofKey? key, value with
  | some .mixins, .block mixins => ofEntries (fun _ => true) mixins
  | some .media, .list items => ofQueries 0 0 items
  | some _, _ => []
  | none, value => if top || (Directive.nestingSuffix? key).isSome then ofBlock value else []

/-- The bodies right inside of a body. -/
def inside (s : Site) : List Site :=
  s.body.entries.flatMap fun e =>
    (ofEntry s.written.isEmpty e.1 e.2).map
      (under (s.written ++ [.key e.1]) (s.reported ++ [.key e.1]))

end Site

/-- The bodies in a descriptor, at any depth. The descriptor is one of them. -/
inductive Descriptor.Has (d : Descriptor) : Site → Prop
  | root : d.Has ⟨[], [], d⟩
  | inside {b c : Site} (h : d.Has b) (hc : c ∈ b.inside) : d.Has c

/-! ### Where bodies are -/

namespace Site

variable {v : Value} {b c : Site} {key : String} {value : Value} {body : Descriptor}
  {among : String → Bool} {entries : List (String × Value)}

/-- A body is in a value, at the location where it is written, and reported at the other one. -/
def In (c : Site) (v : Value) : Prop :=
  v.Reports c.written c.reported (.block c.body.entries)

lemma mem_ofBlock (h : value.block? = some body) : ⟨[], [], body⟩ ∈ ofBlock value :=
  List.mem_map_of_mem (Option.mem_toList.2 h)

lemma mem_ofEntries {e : String × Value} (he : e ∈ entries) (ha : among e.1 = true)
    (h : e.2.block? = some body) : ⟨[.key e.1], [.key e.1], body⟩ ∈ ofEntries among entries :=
  List.mem_flatMap.2
    ⟨e, List.mem_filter.2 ⟨he, ha⟩, List.mem_map_of_mem (mem_ofBlock h)⟩

lemma in_of_mem_ofBlock (h : c ∈ ofBlock v) : c.In v := by
  obtain ⟨body, hb, rfl⟩ := List.mem_map.1 h
  rw [Option.mem_toList, Value.block?_eq_some] at hb
  rw [hb]
  exact .here _

lemma in_of_mem_ofEntries (h : c ∈ ofEntries among entries) :
    c.In (.block entries) := by
  obtain ⟨e, he, h⟩ := List.mem_flatMap.1 h
  obtain ⟨c, hc, rfl⟩ := List.mem_map.1 h
  exact .entry (List.mem_filter.1 he).1 (in_of_mem_ofBlock hc)

/-- The body of a query is that of an item. Its positions are those of the item among all items and
among those that are there. -/
lemma exists_of_mem_ofQueries {i j : Nat} {items : List Value} (h : c ∈ ofQueries i j items) :
    ∃ n query c', items[n]? = some (.block query)
      ∧ c' ∈ ofEntries (· == MediaQuery.cssKey) query
      ∧ c = c'.under [.item (i + n)]
        [.item (j + (items.take n).countP fun v => !v.isAbsent)] := by
  induction items generalizing i j with
  | nil => cases h
  | cons v rest ih =>
    -- a query that is further on
    have hfurther : ∀ j', j' = j + (if v.isAbsent then 0 else 1) → c ∈ ofQueries (i + 1) j' rest →
        ∃ n query c', (v :: rest)[n]? = some (.block query)
          ∧ c' ∈ ofEntries (· == MediaQuery.cssKey) query
          ∧ c = c'.under [.item (i + n)]
            [.item (j + ((v :: rest).take n).countP fun v => !v.isAbsent)] := by
      rintro j' rfl h
      obtain ⟨n, query, c', hitem, hc, rfl⟩ := ih h
      refine ⟨n + 1, query, c', hitem, hc, ?_⟩
      rw [List.take_succ_cons, List.countP_cons, Nat.add_assoc, Nat.add_comm 1 n, Nat.add_assoc,
        Nat.add_comm (ite _ _ _)]
      cases v.isAbsent <;> rfl
    cases v with
    | absent => exact hfurther j rfl h
    | block query =>
      rcases List.mem_append.1 h with h | h
      · obtain ⟨c', hc, rfl⟩ := List.mem_map.1 h
        exact ⟨0, query, c', rfl, hc, rfl⟩
      · exact hfurther (j + 1) rfl h
    | _ => exact hfurther (j + 1) rfl h

lemma in_of_mem_ofQueries {items : List Value} (h : c ∈ ofQueries 0 0 items) :
    c.In (.list items) := by
  obtain ⟨n, query, c', hitem, hc, rfl⟩ := exists_of_mem_ofQueries h
  rw [Nat.zero_add, Nat.zero_add]
  exact .item hitem (in_of_mem_ofEntries hc)

lemma in_of_mem_ofEntry {top : Bool} (h : c ∈ ofEntry top key value) : c.In value := by
  unfold ofEntry at h
  split at h
  · exact in_of_mem_ofEntries h
  · exact in_of_mem_ofQueries h
  · cases h
  · split at h
    · exact in_of_mem_ofBlock h
    · cases h

lemma in_of_mem_inside (h : c ∈ b.inside) :
    ∃ c' : Site, c'.In (.block b.body.entries) ∧ c = c'.under b.written b.reported
      ∧ c.written ≠ [] := by
  obtain ⟨e, he, h⟩ := List.mem_flatMap.1 h
  obtain ⟨c, hc, rfl⟩ := List.mem_map.1 h
  refine ⟨c.under [.key e.1] [.key e.1], .entry he (in_of_mem_ofEntry hc), ?_, ?_⟩
  · simp only [Site.under, List.append_assoc]
  · simp only [Site.under, List.append_assoc]
    exact List.append_ne_nil_of_right_ne_nil _ (List.cons_ne_nil _ _)

end Site

namespace Descriptor

variable {d : Descriptor} {b : Site} {f : Payload.Finding}

/-- A body of a descriptor is where it is written, and reported without the absent items. -/
lemma Has.reports (h : d.Has b) :
    (Value.block d.entries).Reports b.written b.reported (.block b.body.entries) := by
  induction h with
  | root => exact .here _
  | inside h hc ih =>
    obtain ⟨c', hin, rfl, _⟩ := Site.in_of_mem_inside hc
    exact ih.trans hin

/-- A list of bodies has all those of a descriptor, if it has the descriptor, and all that is right
inside of what it has. -/
lemma Has.mem_of_closed {sites : List Site} (hroot : ⟨[], [], d⟩ ∈ sites)
    (hinside : sites.flatMap Site.inside ⊆ sites) (h : d.Has b) : b ∈ sites := by
  induction h with
  | root => exact hroot
  | inside _ hc ih => exact hinside (List.mem_flatMap.2 ⟨_, ih, hc⟩)

/-! ### What is wrong with a body -/

/-- What is wrong with the payload of an entry. Absent ones have none. -/
def payloadFindings (key : String) (value : Value) : List Payload.Finding :=
  if value.isAbsent then []
  else
    match Directive.Reserved.ofKey? key with
    | some .media => MediaQuery.listFindings value
    | some .keyframes => Keyframes.listFindings value
    | _ => []

/-- What is wrong with the payloads of a body. -/
def findings (body : Descriptor) : List Payload.Finding :=
  body.entries.flatMap fun e => (payloadFindings e.1 e.2).map (Payload.Finding.under (.key e.1))

lemma locates_of_mem_payloadFindings {key : String} {value : Value}
    (h : f ∈ payloadFindings key value) : value.Locates f.location := by
  unfold payloadFindings at h
  split at h
  · cases h
  · split at h
    · exact Payload.locates_of_mem_ofList (fun _ _ => MediaQuery.locates_of_mem_findings) h
    · exact Payload.locates_of_mem_ofList (fun _ _ => Keyframes.locates_of_mem_findings) h
    · cases h

/-- Findings are at values of the body, or at keys that are missing in its mappings. -/
lemma locates_of_mem_findings (h : f ∈ d.findings) :
    (Value.block d.entries).Locates f.location := by
  obtain ⟨e, he, h⟩ := List.mem_flatMap.1 h
  obtain ⟨g, hg, rfl⟩ := List.mem_map.1 h
  exact (Value.Reaches.entry he (.here _)).locates (locates_of_mem_payloadFindings hg)

end Descriptor

end Stylesheet
