import ContextPolicy.Proofs.Settings.Accepted

/-! The keywords of accepted settings.

The entries of the text are added to the vocabulary one after the other, and an entry replaces
an earlier one with a keyword that has the same lower-case form (`lookup_of_keywords`). A map
that was read from a text stands in the order of its keys, so of such entries the one with the
greatest keyword is found (`Decides`), under whichever keyword is asked for. Settings that are
accepted have left no entry out, and all that the vocabulary holds was given by an entry. -/
namespace ContextPolicy

theorem Dimension.name_injective : Function.Injective Dimension.name := fun c d h =>
  Option.some.inj ((Dimension.ofName?_name c).symm.trans (h ▸ Dimension.ofName?_name d))

/-! ### Maps that were read -/

theorem exists_of_mem_mapM {α β : Type} {f : α → Option β} {xs : List α} {ys : List β}
    (h : xs.mapM f = some ys) {y : β} (hy : y ∈ ys) : ∃ x ∈ xs, f x = some y := by
  induction xs generalizing ys with
  | nil =>
    cases h
    cases hy
  | cons x rest ih =>
    rw [List.mapM_cons] at h
    obtain ⟨first, hfirst, h⟩ := Option.bind_eq_some_iff.mp h
    obtain ⟨more, hmore, h⟩ := Option.bind_eq_some_iff.mp h
    cases h
    rcases List.mem_cons.mp hy with rfl | hy
    · exact ⟨x, List.mem_cons_self, hfirst⟩
    · obtain ⟨z, hz, hzy⟩ := ih hmore hy
      exact ⟨z, List.mem_cons_of_mem x hz, hzy⟩

theorem mem_of_mem_ofList {α : Type} {entries : List (String × α)} {x : String × α}
    (h : x ∈ (Std.ExtTreeMap.ofList entries).toList) : x ∈ entries := by
  have hlookup : (Std.ExtTreeMap.ofList entries)[x.1]? = some x.2 :=
    Std.ExtTreeMap.mem_toList_iff_getElem?_eq_some.mp h
  rw [Std.ExtTreeMap.ofList_eq_insertMany_empty, Std.ExtTreeMap.getElem?_insertMany_list,
    Std.ExtTreeMap.getElem?_empty, Option.or_none,
    List.findSomeRev?_eq_findSome?_reverse] at hlookup
  obtain ⟨y, hy, hfound⟩ := List.exists_of_findSome?_eq_some hlookup
  simp only [Option.ite_none_right_eq_some, Std.compare_eq_iff_eq, Option.some_inj] at hfound
  rw [← Prod.ext hfound.1 hfound.2]
  exact List.mem_reverse.mp hy

namespace Json
variable {α : Type} {decode : Json → Option α} {v : Json} {entries : List (String × α)}

theorem map?_eq_some (h : map? decode v = some entries) :
    ∃ read, entries = (Std.ExtTreeMap.ofList read).toList ∧
      ∀ x ∈ read, ∃ w, decode w = some x.2 := by
  cases v with
  | object fields =>
    obtain ⟨named, -, h⟩ := Option.bind_eq_some_iff.mp h
    obtain ⟨read, hread, h⟩ := Option.bind_eq_some_iff.mp h
    cases h
    refine ⟨read, rfl, fun x hx => ?_⟩
    obtain ⟨field, -, hfield⟩ := exists_of_mem_mapM hread hx
    obtain ⟨a, ha, rfl⟩ := Option.map_eq_some_iff.mp hfield
    exact ⟨field.2, ha⟩
  | null | bool | number | string | array => cases h

/-- The entries of a map stand in the order of their keys, and no two of them have one key. -/
theorem map?_ascending (h : map? decode v = some entries) :
    entries.Pairwise fun x y => x.1 < y.1 := by
  obtain ⟨read, rfl, -⟩ := map?_eq_some h
  have hordered : (Std.ExtTreeMap.ofList read).toList.Pairwise fun x y =>
      compare x.1 y.1 = .lt := Std.ExtTreeMap.ordered_keys_toList
  exact hordered.imp compareOfLessAndEq_eq_lt.mp

/-- A field is left out or decoded. -/
theorem optional_eq_some {fields : List (String × Json)} {name : String} {default a : α}
    (h : optional fields name default decode = some a) : a = default ∨ ∃ w, decode w = some a := by
  unfold optional at h
  split at h
  · exact .inl (Option.some.inj h).symm
  · exact .inr ⟨_, h⟩

theorem decoded_of_map? (h : map? decode v = some entries) {x : String × α} (hx : x ∈ entries) :
    ∃ w, decode w = some x.2 := by
  obtain ⟨read, rfl, hread⟩ := map?_eq_some h
  exact hread x (mem_of_mem_ofList hx)

end Json

namespace Settings

namespace Entries

/-- The keywords of the text, behind the names of their dimensions. -/
def keywords (e : Entries) : List (String × String × BindingEntry) :=
  e.vocabulary.flatMap fun (name, entries) => entries.map (name, ·)

/-- The text gives something for a keyword. -/
def Gives (e : Entries) (name keyword : String) (b : BindingEntry) : Prop :=
  ∃ entries, (name, entries) ∈ e.vocabulary ∧ (keyword, b) ∈ entries

/-- Of what the text gives for keywords that are found as a word is, the last. -/
structure Decides (e : Entries) (d : Dimension) (word keyword : String) (b : BindingEntry) :
    Prop where
  gives : e.Gives d.name keyword b
  found : Text.lowercase keyword = Text.lowercase word
  last : ∀ other c, e.Gives d.name other c → Text.lowercase other = Text.lowercase word →
    other ≤ keyword

theorem mem_keywords_iff {e : Entries} {name keyword : String} {b : BindingEntry} :
    (name, keyword, b) ∈ e.keywords ↔ e.Gives name keyword b := by
  simp only [keywords, List.mem_flatMap, List.mem_map, Gives]
  constructor
  · rintro ⟨x, hx, y, hy, heq⟩
    cases heq
    exact ⟨_, hx, hy⟩
  · rintro ⟨entries, hentries, hb⟩
    exact ⟨_, hentries, _, hb, rfl⟩

theorem vocabulary_of_ofJson? {v : Json} {e : Entries} (h : ofJson? v = some e) :
    e.vocabulary = [] ∨ ∃ w, Json.map? (Json.map? BindingEntry.ofJson?) w = some e.vocabulary := by
  obtain ⟨fields, -, h⟩ := Option.bind_eq_some_iff.mp h
  obtain ⟨base, -, h⟩ := Option.bind_eq_some_iff.mp h
  obtain ⟨format, -, h⟩ := Option.bind_eq_some_iff.mp h
  obtain ⟨dateFormat, -, h⟩ := Option.bind_eq_some_iff.mp h
  obtain ⟨condition, -, h⟩ := Option.bind_eq_some_iff.mp h
  obtain ⟨prefixes, -, h⟩ := Option.bind_eq_some_iff.mp h
  obtain ⟨vocabulary, hvocabulary, h⟩ := Option.bind_eq_some_iff.mp h
  cases h
  exact Json.optional_eq_some hvocabulary

/-- Keywords of one dimension stand in their order. -/
theorem keywords_ascending {v : Json} {e : Entries} (h : ofJson? v = some e) :
    e.keywords.Pairwise fun x y => x.1 = y.1 → x.2.1 < y.2.1 := by
  rcases vocabulary_of_ofJson? h with hnone | ⟨w, hw⟩
  · rw [keywords, hnone]
    exact .nil
  · refine List.pairwise_flatMap.mpr ⟨fun entries hentries => ?_, ?_⟩
    · obtain ⟨_, hread⟩ := Json.decoded_of_map? hw hentries
      refine List.pairwise_map.mpr ((Json.map?_ascending hread).imp ?_)
      exact fun hlt _ => hlt
    · refine (Json.map?_ascending hw).imp fun {a b} hlt x hx y hy heq => ?_
      obtain ⟨_, -, rfl⟩ := List.mem_map.mp hx
      obtain ⟨_, -, rfl⟩ := List.mem_map.mp hy
      exact absurd (heq ▸ hlt) (Std.lt_irrefl)

end Entries

/-! ### Entries that are added -/

variable {p : Prefixes} {name : String} {v w : Vocabulary} {d : Dimension} {word : String}
  {b : Binding}

/-- The maps of the text may be added as one list. -/
theorem readVocabulary_eq (p : Prefixes) (e : Entries) : readVocabulary p e.vocabulary =
    e.keywords.foldlM (fun v x => addKeyword p x.1 v x.2) ∅ := by
  rw [readVocabulary, Entries.keywords]
  generalize (∅ : Vocabulary) = v
  induction e.vocabulary generalizing v with
  | nil => rfl
  | cons entries rest ih =>
    rw [List.foldlM_cons, List.flatMap_cons, List.foldlM_append, List.foldlM_map]
    exact congrArg _ (funext fun w => ih w)

theorem binding_of_readVocabulary {e : Entries} (h : readVocabulary p e.vocabulary = .ok w)
    {keyword : String} {entry : BindingEntry} (hgives : e.Gives name keyword entry) :
    ∃ d b, Dimension.name d = name ∧ binding p entry = .ok b := by
  rw [readVocabulary_eq] at h
  have hall : ∀ x ∈ e.keywords, ∃ d b, Dimension.name d = x.1 ∧ binding p x.2.2 = .ok b := by
    generalize e.keywords = xs at h
    generalize (∅ : Vocabulary) = v at h
    induction xs generalizing v with
    | nil => exact fun x hx => absurd hx List.not_mem_nil
    | cons x rest ih =>
      rw [List.foldlM_cons] at h
      obtain ⟨middle, hfirst, h⟩ := bind_eq_ok.mp h
      obtain ⟨d, b, hd, hb, -⟩ := addKeyword_ok hfirst
      exact List.forall_mem_cons.mpr ⟨⟨d, b, hd, hb⟩, ih middle h⟩
  exact hall _ (Entries.mem_keywords_iff.mpr hgives)

/-- Whether an entry is found for a word. -/
def isFound (d : Dimension) (word : String) (x : String × String × BindingEntry) : Bool :=
  x.1 == d.name && Text.lowercase x.2.1 == Text.lowercase word

theorem isFound_iff {x : String × String × BindingEntry} :
    isFound d word x = true ↔ x.1 = d.name ∧ Text.lowercase x.2.1 = Text.lowercase word := by
  rw [isFound, Bool.and_eq_true, beq_iff_eq, beq_iff_eq]

theorem lookup_addKeyword {x : String × String × BindingEntry}
    (h : addKeyword p x.1 v x.2 = .ok w) : w.lookup d word =
      if isFound d word x then (binding p x.2.2).toOption else v.lookup d word := by
  obtain ⟨d', b, hd, hb, hinsert⟩ := addKeyword_ok h
  have hiff : d = d' ∧ Text.lowercase word = Text.lowercase x.2.1 ↔ isFound d word x = true := by
    rw [isFound_iff, ← hd, eq_comm (a := d), Dimension.name_injective.eq_iff,
      eq_comm (a := Text.lowercase word)]
  rw [Vocabulary.lookup_of_insert? hinsert, hb]
  simp only [hiff]
  rfl

/-- The last entry that is found for a word counts, or else what was there before. -/
theorem lookup_of_keywords {xs : List (String × String × BindingEntry)}
    (h : xs.foldlM (fun v x => addKeyword p x.1 v x.2) v = .ok w) : w.lookup d word =
      match (xs.filter (isFound d word)).getLast? with
      | some x => (binding p x.2.2).toOption
      | none => v.lookup d word := by
  induction xs generalizing v with
  | nil =>
    cases h
    rfl
  | cons x rest ih =>
    rw [List.foldlM_cons] at h
    obtain ⟨middle, hfirst, h⟩ := bind_eq_ok.mp h
    rw [ih h, lookup_addKeyword hfirst]
    cases hx : isFound d word x with
    | false => rw [List.filter_cons_of_neg (by simp [hx]), if_neg (by simp)]
    | true =>
      rw [List.filter_cons_of_pos hx, List.getLast?_cons, if_pos rfl]
      cases (rest.filter (isFound d word)).getLast? <;> rfl

/-! ### The entry that counts -/

theorem getLast?_found_iff {json : Json} {e : Entries} (h : Entries.ofJson? json = some e)
    {x : String × String × BindingEntry} :
    (e.keywords.filter (isFound d word)).getLast? = some x ↔
      x.1 = d.name ∧ e.Decides d word x.2.1 x.2.2 := by
  have hmem : ∀ y, y ∈ e.keywords.filter (isFound d word) ↔
      y.1 = d.name ∧ e.Gives d.name y.2.1 y.2.2 ∧ Text.lowercase y.2.1 = Text.lowercase word := by
    rintro ⟨name, keyword, entry⟩
    rw [List.mem_filter, isFound_iff, Entries.mem_keywords_iff]
    constructor
    · rintro ⟨hgives, rfl, hfound⟩
      exact ⟨rfl, hgives, hfound⟩
    · rintro ⟨rfl, hgives, hfound⟩
      exact ⟨hgives, rfl, hfound⟩
  have hascending : (e.keywords.filter (isFound d word)).Pairwise fun y z => y.2.1 < z.2.1 := by
    refine ((Entries.keywords_ascending h).filter _).imp_of_mem fun hy hz hlt => hlt ?_
    rw [((hmem _).mp hy).1, ((hmem _).mp hz).1]
  constructor
  · intro hlast
    obtain ⟨before, hsplit⟩ := List.getLast?_eq_some_iff.mp hlast
    rw [hsplit] at hmem hascending
    obtain ⟨hname, hgives, hfound⟩ := (hmem x).mp (List.mem_append_right _ List.mem_cons_self)
    refine ⟨hname, hgives, hfound, fun other c hother hsame => ?_⟩
    rcases List.mem_append.mp ((hmem (d.name, other, c)).mpr ⟨rfl, hother, hsame⟩) with hb | hx
    · exact Std.le_of_lt
        ((List.pairwise_append.mp hascending).2.2 _ hb x List.mem_cons_self)
    · exact Std.le_of_eq (congrArg (·.2.1) (List.mem_singleton.mp hx))
  · rintro ⟨hname, hgives, hfound, hlast⟩
    obtain ⟨before, after, hsplit⟩ := List.append_of_mem ((hmem x).mpr ⟨hname, hgives, hfound⟩)
    cases after with
    | nil => rw [hsplit, List.getLast?_concat]
    | cons y more =>
      rw [hsplit] at hmem hascending
      have hlt : x.2.1 < y.2.1 :=
        (List.pairwise_cons.mp (List.pairwise_append.mp hascending).2.1).1 y List.mem_cons_self
      obtain ⟨-, hy, hsame⟩ := (hmem y).mp (by simp)
      exact absurd hlt (Std.not_lt.mpr (hlast y.2.1 y.2.2 hy hsame))

theorem lookup_readVocabulary {json : Json} {e : Entries} (he : Entries.ofJson? json = some e)
    (h : readVocabulary p e.vocabulary = .ok v) : v.lookup d word = some b ↔
      ∃ keyword entry, e.Decides d word keyword entry ∧ binding p entry = .ok b := by
  rw [readVocabulary_eq] at h
  rw [lookup_of_keywords h]
  constructor
  · intro hlookup
    split at hlookup
    · next x hx =>
      exact ⟨_, _, ((getLast?_found_iff he).mp hx).2, ok_of_toOption hlookup⟩
    · rw [lookup_empty] at hlookup
      cases hlookup
  · rintro ⟨keyword, entry, hdecides, hb⟩
    have hlast := (getLast?_found_iff he (x := (d.name, keyword, entry))).mpr ⟨rfl, hdecides⟩
    simp only [hlast, hb]
    rfl

/-- Each entry of the vocabulary that an accepted text gives is for a dimension and has a
binding, with short forms taken in full by the default prefixes and those of the text. The
vocabulary finds a binding for a word exactly if it is that of the last entry with a keyword that
has the lower-case form of the word. So an entry is found under its keyword unless another
keyword of its dimension has the same lower-case form. -/
theorem lookup_ofJson {text : String} {s : Settings} (h : ofJson text = .ok s) :
    ∃ e, (Json.read text).bind Entries.ofJson? = some e ∧
      Prefixes.defaults.insertAll e.prefixes = .ok s.prefixes ∧
      (∀ name keyword entry, e.Gives name keyword entry →
        ∃ d b, Dimension.name d = name ∧ binding s.prefixes entry = .ok b ∧
          ((∀ other c, e.Gives name other c →
              Text.lowercase other = Text.lowercase keyword → other = keyword) →
            s.vocabulary.lookup d keyword = some b)) ∧
      ∀ d word b, s.vocabulary.lookup d word = some b ↔
        ∃ keyword entry, e.Decides d word keyword entry ∧ binding s.prefixes entry = .ok b := by
  obtain ⟨e, he, hentries⟩ := ofJson_eq_ok_iff.mp h
  obtain ⟨json, -, hjson⟩ := Option.bind_eq_some_iff.mp he
  obtain ⟨hprefixes, -, hvocabulary⟩ := ofEntries_ok hentries
  have hlookup : ∀ d word b, s.vocabulary.lookup d word = some b ↔
      ∃ keyword entry, e.Decides d word keyword entry ∧ binding s.prefixes entry = .ok b :=
    fun d word b => lookup_readVocabulary hjson hvocabulary
  refine ⟨e, he, hprefixes, fun name keyword entry hgives => ?_, hlookup⟩
  obtain ⟨d, b, rfl, hb⟩ := binding_of_readVocabulary hvocabulary hgives
  refine ⟨d, b, rfl, hb, fun halone => (hlookup d keyword b).mpr ⟨keyword, entry, ?_, hb⟩⟩
  exact ⟨hgives, rfl, fun other c hother hsame => Std.le_of_eq (halone other c hother hsame)⟩

/-- Short forms with a prefix of the text, and a keyword that is asked for in another case. -/
theorem lookup_ofJson_short :
    let text := "\x7b\"prefixes\": \x7b\"org\": \"urn:org#\"\x7d, \"vocabulary\": \x7b" ++
      "\"user\": \x7b\"Staff\": \x7b\"predicate\": \"org:role\", \"iri\": \"org:Staff\"\x7d, " ++
      "\"guest\": \x7b\"predicate\": \"org:role\", \"literal\": \"guest\"\x7d\x7d\x7d\x7d"
    ∃ s, ofJson text = .ok s ∧
      s.vocabulary.lookup .user "STAFF" = some ⟨"urn:org#role", .named "urn:org#Staff"⟩ := by
  intro text
  let staff : BindingEntry := ⟨"org:role", some "org:Staff", none, none, none⟩
  let guest : BindingEntry := ⟨"org:role", none, some "guest", none, none⟩
  let e : Entries := ⟨none, .turtle, none, none, [("org", "urn:org#")],
    [("user", [("Staff", staff), ("guest", guest)])]⟩
  have hread : (Json.read text).bind Entries.ofJson? = some e := by decide +kernel
  have hdecides : e.Decides .user "STAFF" "Staff" staff := by
    refine ⟨⟨_, List.mem_cons_self, List.mem_cons_self⟩, by decide +kernel, ?_⟩
    rintro other c ⟨entries, hentries, hc⟩ hsame
    obtain rfl := (Prod.mk.inj (List.mem_singleton.mp hentries)).2
    rcases List.mem_cons.mp hc with hc | hc
    · exact Std.le_of_eq (Prod.mk.inj hc).1
    · rw [(Prod.mk.inj (List.mem_singleton.mp hc)).1] at hsame
      exact absurd hsame (by decide +kernel)
  have hbinding : (Prefixes.defaults.insertAll e.prefixes).toOption.map
      (fun p => (binding p staff).toOption) =
        some (some ⟨"urn:org#role", .named "urn:org#Staff"⟩) := by
    decide +kernel
  have hok : (ofEntries e).toOption.isSome := by decide +kernel
  obtain ⟨s, hs⟩ := Option.isSome_iff_exists.mp hok
  have hjson : ofJson text = .ok s := ofJson_eq_ok_iff.mpr ⟨e, hread, ok_of_toOption hs⟩
  obtain ⟨e', he, hprefixes, -, hlookup⟩ := lookup_ofJson hjson
  obtain rfl : e = e' := Option.some.inj (hread.symm.trans he)
  rw [hprefixes] at hbinding
  have hb := ok_of_toOption (Option.some.inj hbinding)
  exact ⟨s, hjson, (hlookup .user "STAFF" _).mpr ⟨"Staff", staff, hdecides, hb⟩⟩

/-- Two keywords that differ in case only: the text gives something for the first, and what it
gives for the second is found. -/
theorem lookup_ofJson_replaced :
    let text := "\x7b\"vocabulary\": \x7b\"user\": \x7b" ++
      "\"STAFF\": \x7b\"predicate\": \"urn:role\", \"literal\": \"all\"\x7d, " ++
      "\"Staff\": \x7b\"predicate\": \"urn:role\", \"literal\": \"some\"\x7d\x7d\x7d\x7d"
    let entry : BindingEntry := ⟨"urn:role", none, some "all", none, none⟩
    ∃ s e b, ofJson text = .ok s ∧ (Json.read text).bind Entries.ofJson? = some e ∧
      e.Gives "user" "STAFF" entry ∧ binding s.prefixes entry = .ok b ∧
      s.vocabulary.lookup .user "STAFF" ≠ some b := by
  intro text entry
  let e : Entries := ⟨none, .turtle, none, none, [], [("user",
    [("STAFF", entry), ("Staff", ⟨"urn:role", none, some "some", none, none⟩)])]⟩
  let keywords : Keywords := (∅ : Keywords).insert "staff" ⟨"urn:role", .plain "some"⟩
  let s : Settings := { Settings.default with vocabulary := ⟨keywords, ∅, ∅⟩ }
  have he : (Json.read text).bind Entries.ofJson? = some e := by decide +kernel
  have hs : (ofEntries e).toOption = some s := by decide +kernel
  have hjson : ofJson text = .ok s := ofJson_eq_ok_iff.mpr ⟨e, he, ok_of_toOption hs⟩
  have hb : (binding s.prefixes entry).toOption = some ⟨"urn:role", .plain "all"⟩ := by
    decide +kernel
  exact ⟨s, e, _, hjson, he, ⟨_, List.mem_cons_self, List.mem_cons_self⟩, ok_of_toOption hb,
    by decide +kernel⟩

end Settings

end ContextPolicy
