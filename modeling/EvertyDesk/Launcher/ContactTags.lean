import EvertyDesk.Launcher.LauncherStore
import EvertyDesk.Lib.Splitting
import Mathlib.Data.List.Lex
import Mathlib.Data.Char

/-!
Tags made regular: single spaces between the words, no tag twice up to the case of ASCII
letters, in alphabetical order. What has been made regular stays as it is.
-/

namespace EvertyDesk.Launcher

variable {tag : List Char}

/-- The words of a tag with single spaces between them. -/
def joinWords (tag : List Char) : List Char := [' '].intercalate (splitWhitespace tag)

/-- The turn of one tag. -/
def addTag (normalized : List (List Char)) (tag : List Char) : List (List Char) :=
  let tag := trim tag
  if tag.isEmpty then normalized
  else if normalized.any (eqIgnoreAsciiCase · (joinWords tag)) then normalized
  else normalized ++ [joinWords tag]

theorem normalizeContactTags_eq (toLowercase : List Char → List Char) (tags : List (List Char)) :
    normalizeContactTags toLowercase tags = (tags.foldl addTag []).mergeSort
      fun left right => !decide (toLowercase right < toLowercase left) := rfl

/-! One tag. -/

structure RegularTag (tag : List Char) : Prop where
  nonempty : tag ≠ []
  trimmed : trim tag = tag
  joined : joinWords tag = tag

theorem mem_splitWhitespace {word : List Char} (h : word ∈ splitWhitespace tag) :
    word ≠ [] ∧ ∀ c ∈ word, isWhitespace c = false := by
  rw [splitWhitespace, List.mem_filter] at h
  refine ⟨by simpa using h.2, fun c hc => ?_⟩
  have hflat := List.mem_flatten_of_mem h.1 hc
  rw [flatten_splitOnP, List.mem_filter] at hflat
  simpa using hflat.2

theorem splitWhitespace_ne_nil {c : Char} (hmem : c ∈ tag) (hc : isWhitespace c = false) :
    splitWhitespace tag ≠ [] := by
  have hflat : c ∈ (tag.splitOnP isWhitespace).flatten := by
    rw [flatten_splitOnP, List.mem_filter]
    exact ⟨hmem, by simp [hc]⟩
  obtain ⟨word, hword, hin⟩ := List.mem_flatten.mp hflat
  refine List.ne_nil_of_mem (List.mem_filter.mpr ⟨hword, ?_⟩)
  simpa using List.ne_nil_of_mem hin

theorem intercalate_tight {words : List (List Char)} (hsome : words ≠ [])
    (hwords : ∀ word ∈ words, word ≠ [] ∧ ∀ c ∈ word, isWhitespace c = false) :
    [' '].intercalate words ≠ [] ∧ Tight isWhitespace ([' '].intercalate words) := by
  induction words with
  | nil => exact absurd rfl hsome
  | cons word words ih =>
      obtain ⟨⟨hword, hclean⟩, hrest⟩ := List.forall_mem_cons.mp hwords
      have hhead : ∀ rest c, (word ++ rest).head? = some c → isWhitespace c = false := by
        intro rest c hc
        rw [List.head?_append_of_ne_nil _ hword] at hc
        exact hclean c (List.mem_of_head? hc)
      cases words with
      | nil =>
          rw [List.intercalate_singleton]
          refine ⟨hword, ?_, fun c hc => hclean c (List.mem_of_getLast? hc)⟩
          exact fun c hc => hclean c (List.mem_of_head? hc)
      | cons second words =>
          obtain ⟨htail, htight⟩ := ih (List.cons_ne_nil _ _) hrest
          rw [List.intercalate_cons_cons, List.append_assoc]
          refine ⟨by simp [hword], hhead _, fun c hc => ?_⟩
          rw [List.getLast?_append_of_ne_nil _ (by simp),
            List.getLast?_append_of_ne_nil _ htail] at hc
          exact htight.last c hc

theorem joinWords_regular (h : trim tag ≠ []) : RegularTag (joinWords (trim tag)) := by
  obtain ⟨first, rest, htrim⟩ := List.exists_cons_of_ne_nil h
  have htight := trimBy_tight isWhitespace tag
  have hclean : isWhitespace first = false := by
    apply htight.head
    rw [← trim_eq_trimBy, htrim]
    rfl
  have hsome := splitWhitespace_ne_nil (htrim ▸ List.mem_cons_self) hclean
  have hwords : ∀ word ∈ splitWhitespace (trim tag), word ≠ [] ∧ ∀ c ∈ word,
      isWhitespace c = false := fun _ => mem_splitWhitespace
  obtain ⟨hjoined, hends⟩ := intercalate_tight hsome hwords
  refine ⟨hjoined, trimBy_of_tight hends, ?_⟩
  have hsplit : splitWhitespace (joinWords (trim tag)) = splitWhitespace (trim tag) := by
    rw [splitWhitespace, joinWords, splitOnP_intercalate (by decide) hsome
      fun word hword => (hwords word hword).2]
    exact List.filter_eq_self.mpr fun word hword => by simpa using (hwords word hword).1
  rw [joinWords, hsplit, ← joinWords]

/-! Many tags. -/

/-- Regular tags that differ from each other. -/
structure DistinctTags (tags : List (List Char)) : Prop where
  regular : ∀ tag ∈ tags, RegularTag tag
  distinct : tags.Pairwise fun left right => eqIgnoreAsciiCase left right = false

theorem eqIgnoreAsciiCase_comm (left right : List Char) :
    eqIgnoreAsciiCase left right = eqIgnoreAsciiCase right left := by
  rw [eqIgnoreAsciiCase, eqIgnoreAsciiCase, BEq.comm]

theorem DistinctTags.perm {tags others : List (List Char)} (h : DistinctTags tags)
    (hperm : tags.Perm others) : DistinctTags others where
  regular tag htag := h.regular tag (hperm.mem_iff.mpr htag)
  distinct := (hperm.pairwise_iff fun {left right} hdiffer => by
    rwa [eqIgnoreAsciiCase_comm] at hdiffer).mp h.distinct

theorem DistinctTags.addTag {tags : List (List Char)} (h : DistinctTags tags)
    (tag : List Char) : DistinctTags (addTag tags tag) := by
  rw [Launcher.addTag]
  split
  · exact h
  next hsome =>
    split
    · exact h
    next hnew =>
      have hregular := joinWords_regular (by simpa using hsome)
      constructor
      · intro other hother
        rcases List.mem_append.mp hother with hold | hlast
        · exact h.regular other hold
        · rw [List.mem_singleton] at hlast
          exact hlast ▸ hregular
      · refine List.pairwise_append.mpr ⟨h.distinct, List.pairwise_singleton _ _, ?_⟩
        intro other hother last hlast
        rw [List.mem_singleton] at hlast
        subst hlast
        simp only [List.any_eq_true, not_exists, not_and, Bool.not_eq_true] at hnew
        exact hnew other hother

theorem distinct_addTags (tags : List (List Char)) {normalized : List (List Char)}
    (h : DistinctTags normalized) : DistinctTags (tags.foldl addTag normalized) := by
  induction tags generalizing normalized with
  | nil => exact h
  | cons tag tags ih => exact ih (h.addTag tag)

/-- Tags that are regular and distinct are all taken as they are. -/
theorem addTags_of_distinct {tags normalized : List (List Char)}
    (h : DistinctTags (normalized ++ tags)) :
    tags.foldl addTag normalized = normalized ++ tags := by
  induction tags generalizing normalized with
  | nil => exact (List.append_nil normalized).symm
  | cons tag tags ih =>
      have hregular := h.regular tag (by simp)
      have hnew : normalized.any (eqIgnoreAsciiCase · tag) = false := by
        obtain ⟨-, -, hdiffer⟩ := List.pairwise_append.mp h.distinct
        rw [List.any_eq_false]
        intro other hother
        rw [hdiffer other hother tag List.mem_cons_self]
        exact Bool.false_ne_true
      have hadd : addTag normalized tag = normalized ++ [tag] := by
        rw [addTag, hregular.trimmed, hregular.joined, if_neg (by simpa using hregular.nonempty),
          if_neg (by simp [hnew])]
      rw [List.foldl_cons, hadd, ih (by simpa using h), List.append_assoc, List.singleton_append]

theorem sorted_tags (toLowercase : List Char → List Char) (tags : List (List Char)) :
    (tags.mergeSort fun left right => !decide (toLowercase right < toLowercase left)).Pairwise
      fun left right => (!decide (toLowercase right < toLowercase left)) = true := by
  apply List.pairwise_mergeSort
  · intro a b c hab hbc
    simp only [Bool.not_eq_true', decide_eq_false_iff_not, not_lt] at hab hbc ⊢
    exact hab.trans hbc
  · intro a b
    simp only [Bool.or_eq_true, Bool.not_eq_true', decide_eq_false_iff_not, not_lt]
    exact le_total _ _

theorem normalizeContactTags_idempotent (toLowercase : List Char → List Char)
    (tags : List (List Char)) :
    normalizeContactTags toLowercase (normalizeContactTags toLowercase tags) =
      normalizeContactTags toLowercase tags := by
  have hdistinct : DistinctTags (normalizeContactTags toLowercase tags) :=
    (distinct_addTags tags ⟨by simp, List.Pairwise.nil⟩).perm (List.mergeSort_perm _ _).symm
  have hsorted := sorted_tags toLowercase (tags.foldl addTag [])
  rw [normalizeContactTags_eq, addTags_of_distinct (by simpa using hdistinct), List.nil_append]
  exact List.mergeSort_of_pairwise hsorted

end EvertyDesk.Launcher
