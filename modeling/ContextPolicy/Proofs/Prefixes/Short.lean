import ContextPolicy.Proofs.Prefixes.Built
import ContextPolicy.Proofs.Text.Scan
import Mathlib.Data.List.TakeDrop
import Mathlib.Data.List.TakeWhile

/-! Short forms of IRIs.

A short form is split at its first colon (`splitAtColon_eq_some_iff`), and in a table that was
built no name of a declaration holds one, so a short form that was made is split into the
name and the part that it was made of. It is made with the longest namespace: the search
keeps the longest so far (`exists_longest`), and two that an IRI begins with are not equally
long unless they are the same, for which there is one name. -/
namespace ContextPolicy.Prefixes

variable {p : Prefixes} {iri : String}

/-! ### Colons -/

theorem splitAtColon_eq_some_iff {cs name part : List Char} :
    splitAtColon cs = some (name, part) ↔ cs = name ++ ':' :: part ∧ ':' ∉ name := by
  rw [splitAtColon, List.span_eq_takeWhile_dropWhile]
  constructor
  · intro h
    split at h
    · next found c rest hspan =>
      cases h
      obtain ⟨hname, hbehind⟩ := Prod.mk.inj hspan
      have hcolon : c = ':' := by
        have hhead := List.head?_dropWhile_not (· != ':') cs
        rw [hbehind] at hhead
        simpa using hhead
      subst hcolon
      constructor
      · rw [← hbehind, ← hname, List.takeWhile_append_dropWhile]
      · intro hmem
        rw [← hname] at hmem
        exact absurd (List.mem_takeWhile_imp hmem) (by decide)
    · cases h
  · rintro ⟨rfl, hname⟩
    have hcolon : ∀ c ∈ name, (c != ':') = true := fun c hc =>
      bne_iff_ne.mpr (ne_of_mem_of_not_mem hc hname)
    have hstops : ∀ c, (':' :: part).head? = some c → (c != ':') = false := by
      rintro c ⟨⟩
      rfl
    obtain ⟨htake, hdrop⟩ := Text.scan_append hcolon hstops
    rw [htake, hdrop]

theorem colon_not_mem {name : String} (h : PrefixName.writable name = true) :
    ':' ∉ name.toList := by
  intro hcolon
  have hchar := PrefixName.nameChar_of_mem h hcolon
  revert hchar
  decide +kernel

/-- What a short form stands for: a part behind the namespace of its name. -/
theorem expand_eq_some_iff {short : String} :
    p.expand short = some iri ↔ ∃ name space part : String, ':' ∉ name.toList ∧
      (name, space) ∈ p.declarations ∧ short = name ++ ":" ++ part ∧ iri = space ++ part := by
  constructor
  · intro h
    obtain ⟨⟨name, part⟩, hsplit, h⟩ := Option.bind_eq_some_iff.mp h
    obtain ⟨hshort, hname⟩ := splitAtColon_eq_some_iff.mp hsplit
    simp only at h
    split at h
    · cases h
    · next hdata =>
      obtain ⟨space, hspace, rfl⟩ := Option.map_eq_some_iff.mp h
      refine ⟨.ofList name, space, .ofList part, ?_, ?_, ?_, rfl⟩
      · rwa [String.toList_ofList]
      · exact mem_declarations_iff.mpr ⟨hspace, Bool.eq_false_iff.mpr hdata⟩
      · apply String.toList_inj.mp
        simpa using hshort
  · rintro ⟨name, space, part, hname, hmem, rfl, rfl⟩
    obtain ⟨hspace, hdata⟩ := mem_declarations_iff.mp hmem
    have hsplit : splitAtColon (name ++ ":" ++ part).toList = some (name.toList, part.toList) :=
      splitAtColon_eq_some_iff.mpr ⟨by simp, hname⟩
    rw [expand, hsplit, Option.bind_some]
    simp only [String.ofList_toList, hdata, hspace]
    rfl

/-! ### The longest namespace -/

theorem exists_longest (first : String × String) (entries : List (String × String)) :
    ∃ found ∈ first :: entries, entries.foldl longer (some first) = some found ∧
      ∀ e ∈ first :: entries, e.2.length ≤ found.2.length := by
  induction entries generalizing first with
  | nil => exact ⟨first, List.mem_cons_self, rfl, by simp⟩
  | cons e entries ih =>
    rw [List.foldl_cons, longer]
    split
    · next hlonger =>
      obtain ⟨found, hfound, hfold, hmax⟩ := ih first
      rw [List.forall_mem_cons] at hmax
      refine ⟨found, ?_, hfold, ?_⟩
      · exact (List.Sublist.cons_cons first (List.sublist_cons_self e entries)).subset hfound
      · rw [List.forall_mem_cons, List.forall_mem_cons]
        exact ⟨hmax.1, hlonger.le.trans hmax.1, hmax.2⟩
    · next hlonger =>
      obtain ⟨found, hfound, hfold, hmax⟩ := ih e
      refine ⟨found, List.mem_cons_of_mem first hfound, hfold, ?_⟩
      rw [List.forall_mem_cons]
      exact ⟨(Nat.not_lt.mp hlonger).trans (hmax e List.mem_cons_self), hmax⟩

theorem mem_candidates_iff (hp : p.Writable) {e : String × String} :
    e ∈ p.candidates iri ↔ e ∈ p.declarations ∧ e.2.toList <+: iri.toList := by
  rw [candidates, List.mem_filter, Bool.and_eq_true, List.isPrefixOf_iff_prefix]
  refine and_congr_right fun hmem => and_iff_right ?_
  obtain ⟨hspace, hdata⟩ := mem_declarations_iff.mp hmem
  obtain ⟨-, hwritable⟩ := (isWritable_iff hdata).mp (hp e.1 e.2 hspace)
  exact (Bool.and_eq_true_iff.mp hwritable).1

theorem longest?_eq_none_iff : p.longest? iri = none ↔ p.candidates iri = [] := by
  unfold longest?
  cases p.candidates iri with
  | nil => exact ⟨fun _ => rfl, fun _ => rfl⟩
  | cons first entries =>
    obtain ⟨found, -, hfold, -⟩ := exists_longest first entries
    rw [List.foldl_cons, longer, hfold]
    exact ⟨nofun, nofun⟩

theorem longest?_eq_some {found : String × String} (h : p.longest? iri = some found) :
    found ∈ p.candidates iri ∧ ∀ e ∈ p.candidates iri, e.2.length ≤ found.2.length := by
  unfold longest? at h
  cases hcandidates : p.candidates iri with
  | nil =>
    rw [hcandidates] at h
    cases h
  | cons first entries =>
    obtain ⟨longest, hmem, hfold, hmax⟩ := exists_longest first entries
    rw [hcandidates, List.foldl_cons, longer, hfold] at h
    cases h
    exact ⟨hmem, hmax⟩

/-- Namespaces of one length that an IRI begins with are the same, and so are their names. -/
theorem Apart.candidate_unique (hp : p.Apart) {d e : String × String}
    (hd : d ∈ p.candidates iri) (he : e ∈ p.candidates iri) (h : d.2.length = e.2.length) :
    d = e := by
  simp only [candidates, List.mem_filter, Bool.and_eq_true, List.isPrefixOf_iff_prefix] at hd he
  have hspace : d.2 = e.2 := by
    apply String.toList_inj.mp
    refine (List.prefix_of_prefix_length_le hd.2.2 he.2.2 ?_).eq_of_length ?_
    · rw [String.length_toList, String.length_toList, h]
    · rw [String.length_toList, String.length_toList, h]
  have hname := hp d.1 e.1 d.2 (mem_declarations_iff.mp hd.1).1
    (hspace ▸ (mem_declarations_iff.mp he.1).1)
  exact Prod.ext hname hspace

/-! ### Short forms that are made -/

theorem compact_eq_none_iff (hp : p.Writable) :
    p.compact iri = none ↔ ∀ e ∈ p.declarations, ¬ e.2.toList <+: iri.toList := by
  rw [compact, Option.map_eq_none_iff, longest?_eq_none_iff, List.eq_nil_iff_forall_not_mem]
  simp only [mem_candidates_iff hp, not_and]

theorem compact_eq_some {short : String} (hp : p.Writable) (h : p.compact iri = some short) :
    ∃ name space part : String, p.longest? iri = some (name, space) ∧
      (name, space) ∈ p.declarations ∧ short = name ++ ":" ++ part ∧ iri = space ++ part := by
  obtain ⟨⟨name, space⟩, hlongest, rfl⟩ := Option.map_eq_some_iff.mp h
  obtain ⟨hmem, hstart⟩ := (mem_candidates_iff hp).mp (longest?_eq_some hlongest).1
  refine ⟨name, space, _, hlongest, hmem, rfl, ?_⟩
  apply String.toList_inj.mp
  rw [String.toList_append, String.toList_ofList, ← String.length_toList]
  exact (List.prefix_iff_eq_append.mp hstart).symm

/-- An IRI has a short form if it begins with the namespace of a declaration. The form is made
with the longest such namespace, than which all others are shorter, and it stands for the
IRI. So has each IRI that any text stands for. -/
theorem compact_longest (hp : p.Built) (iri : String) :
    (p.compact iri = none ↔ ∀ e ∈ p.declarations, ¬ e.2.toList <+: iri.toList) ∧
    (∀ short, p.compact iri = some short → p.expand short = some iri ∧
      ∃ name space part : String, (name, space) ∈ p.declarations ∧
        short = name ++ ":" ++ part ∧ iri = space ++ part ∧
        ∀ e ∈ p.declarations, e.2.toList <+: iri.toList → e ≠ (name, space) →
          e.2.length < space.length) ∧
    ∀ short, p.expand short = some iri →
      ∃ made, p.compact iri = some made ∧ p.expand made = some iri := by
  have hexpand : ∀ short, p.compact iri = some short → p.expand short = some iri := by
    intro short h
    obtain ⟨name, space, part, -, hmem, hshort, hiri⟩ := compact_eq_some hp.writable h
    obtain ⟨hspace, hdata⟩ := mem_declarations_iff.mp hmem
    obtain ⟨hname, -⟩ := (isWritable_iff hdata).mp (hp.writable name space hspace)
    exact expand_eq_some_iff.mpr ⟨name, space, part, colon_not_mem hname, hmem, hshort, hiri⟩
  refine ⟨compact_eq_none_iff hp.writable, fun short h => ⟨hexpand short h, ?_⟩, ?_⟩
  · obtain ⟨name, space, part, hlongest, hmem, hshort, hiri⟩ := compact_eq_some hp.writable h
    obtain ⟨hfound, hmax⟩ := longest?_eq_some hlongest
    refine ⟨name, space, part, hmem, hshort, hiri, fun e he hstart hne => ?_⟩
    have hcandidate := (mem_candidates_iff hp.writable).mpr ⟨he, hstart⟩
    refine lt_of_le_of_ne (hmax e hcandidate) fun hlength => hne ?_
    exact hp.apart.candidate_unique hcandidate hfound hlength
  · intro short h
    obtain ⟨name, space, part, -, hmem, -, rfl⟩ := expand_eq_some_iff.mp h
    cases hmade : p.compact (space ++ part) with
    | none =>
      have hno := (compact_eq_none_iff hp.writable).mp hmade (name, space) hmem
      rw [String.toList_append] at hno
      exact absurd (List.prefix_append _ _) hno
    | some made => exact ⟨made, rfl, hexpand made hmade⟩

/-- Of a namespace, the namespace inside it and one for bookkeeping inside that, the second is
taken, and a part may hold colons. -/
theorem compact_longest_nested :
    let p : Prefixes := ⟨.ofList [("", "urn:a:"), ("ex", "urn:a:b:"), ("@base", "urn:a:b:c:")]⟩
    p.Built ∧ p.compact "urn:a:b:c:d" = some "ex:c:d" ∧
      p.expand "ex:c:d" = some "urn:a:b:c:d" ∧ p.compact "urn:b" = none := by
  intro p
  have hentries : ofList p.entries = .ok p := by decide +kernel
  have hp : p.Built := .ofList hentries
  have hmade : p.compact "urn:a:b:c:d" = some "ex:c:d" := by decide +kernel
  refine ⟨hp, hmade, ((compact_longest hp _).2.1 _ hmade).1, (compact_longest hp _).1.mpr ?_⟩
  decide +kernel

end ContextPolicy.Prefixes
