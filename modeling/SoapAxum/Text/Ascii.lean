import Mathlib.Data.List.DropRight
import Mathlib.Data.Nat.Notation
import Mathlib.Tactic.Lemma

/-! Text as a list of characters, with the string operations that byte-oriented protocols use:
splitting at a separator, trimming, and comparison without regard to ASCII case. -/
namespace SoapAxum.Text

abbrev Str := List Char

/-- The Unicode property White_Space. -/
def isWhitespace (c : Char) : Bool :=
  let n := c.toNat
  (9 ≤ n && n ≤ 13) || n == 0x20 || n == 0x85 || n == 0xA0 || n == 0x1680 ||
    (0x2000 ≤ n && n ≤ 0x200A) || n == 0x2028 || n == 0x2029 || n == 0x202F || n == 0x205F ||
    n == 0x3000

/-- Drop the characters of a class at both ends. -/
def trimWith (p : Char → Bool) (s : Str) : Str := (s.dropWhile p).rdropWhile p

def trim (s : Str) : Str := trimWith isWhitespace s

/-- Split at the first separator, which belongs to neither part. -/
def splitOnce (sep : Char) : Str → Option (Str × Str)
  | [] => none
  | c :: s => if c = sep then some ([],s) else (splitOnce sep s).map fun r => (c :: r.1,r.2)

def isAsciiDigit (c : Char) : Bool := 48 ≤ c.toNat && c.toNat ≤ 57
def isAsciiAlpha (c : Char) : Bool :=
  (65 ≤ c.toNat && c.toNat ≤ 90) || (97 ≤ c.toNat && c.toNat ≤ 122)
def isAsciiAlphanumeric (c : Char) : Bool := isAsciiAlpha c || isAsciiDigit c

def toAsciiLower (c : Char) : Char :=
  if 65 ≤ c.toNat && c.toNat ≤ 90 then Char.ofNat (c.toNat+32) else c

def eqIgnoreAsciiCase (s t : Str) : Bool := s.map toAsciiLower == t.map toAsciiLower

lemma eqIgnoreAsciiCase_iff {s t : Str} :
    eqIgnoreAsciiCase s t = true ↔ s.map toAsciiLower = t.map toAsciiLower := by
  simp [eqIgnoreAsciiCase]

/-- Text is compared piece by piece. -/
theorem eqIgnoreAsciiCase_append {s a b : Str} : eqIgnoreAsciiCase s (a ++ b) = true ↔
    ∃ x y, s = x ++ y ∧ eqIgnoreAsciiCase x a = true ∧ eqIgnoreAsciiCase y b = true := by
  simp only [eqIgnoreAsciiCase_iff,List.map_append,List.map_eq_append_iff]

lemma length_of_eqIgnoreAsciiCase {s t : Str} (h : eqIgnoreAsciiCase s t = true) :
    s.length = t.length := by
  have hlength := congrArg List.length (eqIgnoreAsciiCase_iff.mp h)
  rwa [List.length_map,List.length_map] at hlength

lemma toAsciiLower_of_not_upper {c : Char} (h : ¬ (65 ≤ c.toNat ∧ c.toNat ≤ 90)) :
    toAsciiLower c = c := by
  unfold toAsciiLower
  rw [if_neg (by simpa using h)]

lemma trimWith_subset (p : Char → Bool) (s : Str) : trimWith p s ⊆ s := fun _ hc =>
  (List.dropWhile_suffix p).subset ((List.rdropWhile_prefix p _).subset hc)

/-- Padding of the trimmed class changes nothing. -/
theorem trimWith_append_append {p : Char → Bool} {a b : Str} (s : Str)
    (ha : ∀ c ∈ a, p c) (hb : ∀ c ∈ b, p c) : trimWith p (a ++ s ++ b) = trimWith p s := by
  have hr : ∀ u : Str, (u ++ b).rdropWhile p = u.rdropWhile p := by
    intro u
    induction b using List.reverseRecOn with
    | nil => simp
    | append_singleton b c ih =>
      rw [← List.append_assoc,List.rdropWhile_concat,if_pos (hb c (by simp))]
      exact ih fun d hd => hb d (by simp [hd])
  have hd : ∀ u : Str, (a ++ u).dropWhile p = u.dropWhile p := by
    intro u
    induction a with
    | nil => rfl
    | cons c a ih =>
      rw [List.cons_append,List.dropWhile_cons,if_pos (ha c (by simp))]
      exact ih fun d hd => ha d (by simp [hd])
  rw [trimWith,List.append_assoc,hd]
  by_cases hs : ∀ c ∈ s, p c
  · have hsb : ∀ c ∈ s ++ b, p c := by
      intro c hc
      exact (List.mem_append.mp hc).elim (hs c) (hb c)
    rw [List.dropWhile_eq_nil_iff.mpr hsb,trimWith,List.dropWhile_eq_nil_iff.mpr hs]
  · have hne : s.dropWhile p ≠ [] := fun h => hs (List.dropWhile_eq_nil_iff.mp h)
    rw [List.dropWhile_append,if_neg (by simpa using hne),hr,trimWith]

/-- Text that neither starts nor ends in the trimmed class is left as it is. -/
theorem trimWith_eq_self {p : Char → Bool} {s : Str} (hh : ∀ c ∈ s.head?, p c = false)
    (hl : ∀ c ∈ s.getLast?, p c = false) : trimWith p s = s := by
  have hd : s.dropWhile p = s := by
    cases s with
    | nil => rfl
    | cons c s => simp [hh c (by simp)]
  rw [trimWith,hd]
  cases s using List.reverseRecOn with
  | nil => rfl
  | append_singleton s c => simp [hl c (by simp)]

lemma trimWith_eq_self_of_forall {p : Char → Bool} {s : Str} (h : ∀ c ∈ s, p c = false) :
    trimWith p s = s :=
  trimWith_eq_self (fun c hc => h c (List.mem_of_mem_head? hc))
    (fun c hc => h c (List.mem_of_mem_getLast? hc))

theorem head?_trimWith {p : Char → Bool} {s : Str} : ∀ c ∈ (trimWith p s).head?, p c = false := by
  intro c hc
  unfold trimWith at hc
  have hd : c ∈ (s.dropWhile p).head? := by
    obtain ⟨rest,hr⟩ := List.rdropWhile_prefix p (s.dropWhile p)
    cases ht : (s.dropWhile p).rdropWhile p with
    | nil => simp [ht] at hc
    | cons d t =>
      rw [ht] at hc hr
      rw [← hr]
      exact hc
  have hnot := List.head?_dropWhile_not p s
  rw [Option.mem_def.mp hd] at hnot
  simpa using hnot

theorem getLast?_trimWith {p : Char → Bool} {s : Str} :
    ∀ c ∈ (trimWith p s).getLast?, p c = false := by
  intro c hc
  unfold trimWith at hc
  cases ht : (s.dropWhile p).rdropWhile p with
  | nil => simp [ht] at hc
  | cons d t =>
    have hne : (s.dropWhile p).rdropWhile p ≠ [] := by simp [ht]
    have hnot := List.rdropWhile_last_not p _ hne
    rw [List.getLast?_eq_some_getLast hne] at hc
    rw [← Option.some.inj hc]
    simpa using hnot

/-- Trimming twice is trimming once. -/
theorem trimWith_trimWith (p : Char → Bool) (s : Str) : trimWith p (trimWith p s) = trimWith p s :=
  trimWith_eq_self head?_trimWith getLast?_trimWith

/-- Splitting and joining with the separator are inverse to each other. -/
theorem splitOnce_eq_some {sep : Char} {s a b : Str} :
    splitOnce sep s = some (a,b) ↔ sep ∉ a ∧ s = a ++ sep :: b := by
  induction s generalizing a with
  | nil => simp [splitOnce]
  | cons c s ih =>
    rw [splitOnce]
    by_cases h : c = sep
    · subst c
      rw [if_pos rfl]
      constructor
      · rintro ⟨⟩
        simp
      · rintro ⟨ha,he⟩
        cases a with
        | nil => simp at he; simp [he]
        | cons d a => simp at he ha; exact absurd he.1 ha.1
    · rw [if_neg h]
      constructor
      · intro hm
        obtain ⟨⟨u,v⟩,hs,he⟩ := Option.map_eq_some_iff.mp hm
        obtain ⟨rfl,rfl⟩ := Prod.mk.inj he
        obtain ⟨hu,rfl⟩ := ih.mp hs
        exact ⟨by simp [hu,Ne.symm h],rfl⟩
      · rintro ⟨ha,he⟩
        cases a with
        | nil => simp at he; exact absurd he.1 h
        | cons d a =>
          simp only [List.cons_append,List.cons.injEq] at he
          obtain ⟨rfl,rfl⟩ := he
          simp [ih.mpr ⟨fun hm => ha (by simp [hm]),rfl⟩]

lemma splitOnce_eq_none {sep : Char} {s : Str} : splitOnce sep s = none ↔ sep ∉ s := by
  induction s with
  | nil => simp [splitOnce]
  | cons c s ih =>
    rw [splitOnce]
    by_cases h : c = sep
    · simp [h]
    · simp [h,ih,Ne.symm h]

lemma splitOnce_append {sep : Char} {a : Str} (b : Str) (h : sep ∉ a) :
    splitOnce sep (a ++ sep :: b) = some (a,b) :=
  splitOnce_eq_some.mpr ⟨h,rfl⟩

/-- The part before the first occurrence of an element and the part after it are determined. -/
theorem append_cons_inj {α : Type} {a : α} {x x' y y' : List α} (hx : a ∉ x) (hx' : a ∉ x')
    (h : x ++ a :: y = x' ++ a :: y') : x = x' ∧ y = y' := by
  induction x generalizing x' with
  | nil =>
    cases x' with
    | nil => exact ⟨rfl,(List.cons.inj h).2⟩
    | cons b x' =>
      obtain ⟨rfl,-⟩ := List.cons.inj h
      exact absurd List.mem_cons_self hx'
  | cons b x ih =>
    cases x' with
    | nil =>
      obtain ⟨rfl,-⟩ := List.cons.inj h
      exact absurd List.mem_cons_self hx
    | cons c x' =>
      obtain ⟨rfl,ht⟩ := List.cons.inj h
      obtain ⟨rfl,rfl⟩ := ih (fun hm => hx (List.mem_cons_of_mem _ hm))
        (fun hm => hx' (List.mem_cons_of_mem _ hm)) ht
      exact ⟨rfl,rfl⟩

/-- The same for the last occurrence. -/
theorem append_cons_inj_of_last {α : Type} {a : α} {x x' y y' : List α} (hy : a ∉ y) (hy' : a ∉ y')
    (h : x ++ a :: y = x' ++ a :: y') : x = x' ∧ y = y' := by
  have hr := congrArg List.reverse h
  simp only [List.reverse_append,List.reverse_cons,List.append_assoc,List.singleton_append] at hr
  obtain ⟨hry,hrx⟩ := append_cons_inj (mt List.mem_reverse.mp hy) (mt List.mem_reverse.mp hy') hr
  exact ⟨List.reverse_injective hrx,List.reverse_injective hry⟩

/-- The pieces between separators have all the other characters of a text. -/
theorem flatten_splitOn {α : Type} [BEq α] (sep : α) (s : List α) :
    (s.splitOn sep).flatten = s.filter fun c => !(c == sep) := by
  induction s with
  | nil => rfl
  | cons c s ih =>
    rw [List.splitOn_cons_eq_if_modifyHead,List.filter_cons,← ih]
    by_cases h : (c == sep) = true
    · simp [h]
    · cases hs : s.splitOn sep with
      | nil => exact absurd hs (List.splitOn_ne_nil sep s)
      | cons first rest => simp [h]

lemma mem_filter_of_mem_splitOn {sep c : Char} {s piece : Str} (hp : piece ∈ s.splitOn sep)
    (hc : c ∈ piece) : c ∈ s ∧ (!(c == sep)) = true := by
  have hflat : c ∈ (s.splitOn sep).flatten := List.mem_flatten_of_mem hp hc
  rw [flatten_splitOn] at hflat
  exact List.mem_filter.mp hflat

lemma mem_of_mem_splitOn {sep c : Char} {s piece : Str} (hp : piece ∈ s.splitOn sep)
    (hc : c ∈ piece) : c ∈ s :=
  (mem_filter_of_mem_splitOn hp hc).1

lemma sep_not_mem_of_mem_splitOn {sep : Char} {s piece : Str} (hp : piece ∈ s.splitOn sep) :
    sep ∉ piece := by
  intro hc
  have hne := (mem_filter_of_mem_splitOn hp hc).2
  simp at hne

/-- Joined lines are split into the pieces of each line. -/
theorem splitOn_intercalate_flatMap {α : Type} [BEq α] [LawfulBEq α] {sep : α}
    {lines : List (List α)} (h : lines ≠ []) :
    ([sep].intercalate lines).splitOn sep = lines.flatMap (List.splitOn sep) := by
  induction lines with
  | nil => contradiction
  | cons line lines ih =>
    cases lines with
    | nil => simp
    | cons second lines =>
      rw [List.intercalate_cons_cons,List.append_assoc,List.singleton_append,
        List.splitOn_append_cons_self,ih (List.cons_ne_nil _ _),
        List.flatMap_cons (x := line)]

/-- A separator with a space behind it is one with the spaces in front of the pieces. -/
theorem intercalate_space (sep : Char) (first : Str) (rest : List Str) :
    [sep,' '].intercalate (first :: rest) = [sep].intercalate (first :: rest.map (' ' :: ·)) := by
  induction rest generalizing first with
  | nil => rfl
  | cons second rest ih =>
    have htail : [sep].intercalate ((' ' :: second) :: rest.map (' ' :: ·)) =
        ' ' :: [sep].intercalate (second :: rest.map (' ' :: ·)) := by
      cases rest with
      | nil => simp
      | cons third rest => rw [List.map_cons,List.intercalate_cons_cons,List.intercalate_cons_cons]; rfl
    rw [List.intercalate_cons_cons,ih,List.map_cons,List.intercalate_cons_cons,htail]
    simp

lemma trim_space (s : Str) : trim (' ' :: s) = trim s := by
  have h := @trimWith_append_append isWhitespace [' '] [] s (by simp [isWhitespace]) (by simp)
  rwa [List.append_nil] at h

theorem splitOn_intercalate_cons {sep : Char} {first : Str} {rest : List Str} (hf : sep ∉ first)
    (hr : ∀ piece ∈ rest, sep ∉ piece) (hs : sep ≠ ' ') :
    ([sep,' '].intercalate (first :: rest)).splitOn sep = first :: rest.map (' ' :: ·) := by
  have hspaced : ∀ piece ∈ first :: rest.map (' ' :: ·), sep ∉ piece := by
    rw [List.forall_mem_cons,List.forall_mem_map]
    refine ⟨hf,?_⟩
    intro piece hp
    rw [List.mem_cons,not_or]
    exact ⟨hs,hr piece hp⟩
  rw [intercalate_space,List.splitOn_intercalate sep hspaced (List.cons_ne_nil _ _)]

/-- Splitting and trimming gives back what was joined with a separator and a space. -/
theorem splitOn_intercalate_space {sep : Char} {pieces : List Str} (hne : pieces ≠ [])
    (h : ∀ piece ∈ pieces, sep ∉ piece) (hs : sep ≠ ' ') :
    (([sep,' '].intercalate pieces).splitOn sep).map trim = pieces.map trim := by
  cases pieces with
  | nil => contradiction
  | cons first rest =>
    obtain ⟨hfirst,hrest⟩ := List.forall_mem_cons.mp h
    rw [splitOn_intercalate_cons hfirst hrest hs,List.map_cons,List.map_cons,List.map_map]
    exact congrArg (trim first :: ·) (List.map_congr_left fun piece _ => trim_space piece)

theorem forall_mem_intercalate {α : Type} {P : α → Prop} {sep : List α} {pieces : List (List α)}
    (hs : ∀ c ∈ sep, P c) (hp : ∀ piece ∈ pieces, ∀ c ∈ piece, P c) :
    ∀ c ∈ sep.intercalate pieces, P c := by
  induction pieces with
  | nil => simp [List.intercalate]
  | cons first rest ih =>
    cases rest with
    | nil => simpa [List.intercalate] using hp first (by simp)
    | cons second rest =>
      have ht := ih fun piece hm => hp piece (by simp [hm])
      intro c hc
      simp only [List.intercalate,List.intersperse_cons_cons,List.flatten_cons,
        List.mem_append] at hc
      rcases hc with hc | hc | hc
      · exact hp first (by simp) c hc
      · exact hs c hc
      · exact ht c hc

lemma toNat_charOfNat {n : ℕ} (h : n < 256) : (Char.ofNat n).toNat = n := by
  have hv : n.isValidChar := Or.inl (by omega)
  rw [Char.ofNat,dif_pos hv]
  rfl

/-- An ASCII character is encoded by the byte of its code point. -/
theorem utf8EncodeChar_of_lt {c : Char} (h : c.toNat < 128) :
    String.utf8EncodeChar c = [UInt8.ofNat c.toNat] := by
  unfold String.utf8EncodeChar
  change (if c.toNat ≤ 127 then [UInt8.ofNat c.toNat] else _) = _
  rw [if_pos (by omega)]

/-- A statement about every ASCII character is checked on the 128 code points. -/
theorem forall_ascii {P : Char → Prop} (h : ∀ n : Fin 128, P (Char.ofNat n)) (c : Char)
    (hc : c.toNat < 128) : P c := by
  simpa using h ⟨c.toNat,hc⟩

end SoapAxum.Text
