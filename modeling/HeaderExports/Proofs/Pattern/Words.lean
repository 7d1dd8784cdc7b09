import HeaderExports.Pattern.LeadingRun
import Mathlib.Tactic.Common

/-!
# The words of the parts of a pattern

One law for every way to build a pattern says what its words are and what is
marked in them. With these laws the words of a whole declaration are written
out once, and no later proof takes a derivation apart.
-/

namespace HeaderExports.Pattern

variable {σ : Type} {p q : Pattern σ} {word : List Char} {marks : Marks σ}

/-- The empty pattern has the empty word only. -/
theorem spells_empty_iff : Spells (σ := σ) .empty word marks ↔ word = [] ∧ marks = [] := by
  constructor
  · rintro ⟨⟩
    exact ⟨rfl, rfl⟩
  · rintro ⟨rfl, rfl⟩
    exact .empty

/-- One character is spelled by itself. -/
theorem spells_one_iff {accepts : Char → Bool} :
    Spells (σ := σ) (.one accepts) word marks ↔
      ∃ c, accepts c = true ∧ word = [c] ∧ marks = [] := by
  constructor
  · intro hs
    cases hs with
    | one accepted => exact ⟨_, accepted, rfl, rfl⟩
  · rintro ⟨c, hc, rfl, rfl⟩
    exact .one hc

/-- A word of two patterns in a row is a word of the one and a word of the
other behind it. -/
theorem spells_seq_iff :
    Spells (.seq p q) word marks ↔
      ∃ u m v n, Spells p u m ∧ Spells q v n ∧ word = u ++ v ∧ marks = m ++ n := by
  constructor
  · intro hs
    cases hs with
    | seq left right => exact ⟨_, _, _, _, left, right, rfl, rfl⟩
  · rintro ⟨u, m, v, n, hu, hv, rfl, rfl⟩
    exact .seq hu hv

/-- A word of a choice is a word of either pattern. -/
theorem spells_alt_iff :
    Spells (.alt p q) word marks ↔ Spells p word marks ∨ Spells q word marks := by
  constructor
  · intro hs
    cases hs with
    | altLeft left => exact .inl left
    | altRight right => exact .inr right
  · rintro (hs | hs)
    · exact .altLeft hs
    · exact .altRight hs

/-- An optional pattern has its words and the empty one. -/
theorem spells_optional_iff :
    Spells (optional p) word marks ↔ Spells p word marks ∨ word = [] ∧ marks = [] := by
  rw [optional, spells_alt_iff, spells_empty_iff]

/-- A marked pattern marks its whole word behind what is marked inside. -/
theorem spells_mark_iff {label : σ} :
    Spells (.mark label p) word marks ↔
      ∃ inner, Spells p word inner ∧ marks = inner ++ [(label, word)] := by
  constructor
  · intro hs
    cases hs with
    | mark inner => exact ⟨_, inner, rfl⟩
  · rintro ⟨inner, hs, rfl⟩
    exact .mark hs

/-- A repeated single character spells the runs of accepted characters. -/
theorem spells_star_one_iff {accepts : Char → Bool} :
    Spells (σ := σ) (.star (.one accepts)) word marks ↔
      (∀ c ∈ word, accepts c = true) ∧ marks = [] := by
  constructor
  · intro hs
    refine ⟨forall_of_spells_star_one hs, ?_⟩
    generalize he : Pattern.star (.one accepts) = s at hs
    induction hs with
    | starStop => rfl
    | starMore _ round _ _ ih =>
      cases he
      cases round
      rw [ih rfl, List.nil_append]
    | _ => cases he
  · rintro ⟨hw, rfl⟩
    exact spells_star_one hw

/-- At least one single character spells the nonempty runs of accepted
characters. -/
theorem spells_plus_one_iff {accepts : Char → Bool} :
    Spells (σ := σ) (plus (.one accepts)) word marks ↔
      word ≠ [] ∧ (∀ c ∈ word, accepts c = true) ∧ marks = [] := by
  rw [plus, spells_seq_iff]
  constructor
  · rintro ⟨u, m, v, n, hu, hv, rfl, rfl⟩
    obtain ⟨c, hc, rfl, rfl⟩ := spells_one_iff.mp hu
    obtain ⟨hall, rfl⟩ := spells_star_one_iff.mp hv
    refine ⟨List.cons_ne_nil c v, fun d hd => ?_, rfl⟩
    rcases List.mem_cons.mp hd with rfl | hd
    · exact hc
    · exact hall d hd
  · rintro ⟨hne, hall, rfl⟩
    obtain ⟨c, v, rfl⟩ := List.exists_cons_of_ne_nil hne
    have hc := hall c List.mem_cons_self
    have hv : ∀ d ∈ v, accepts d = true := fun d hd => hall d (List.mem_cons_of_mem c hd)
    exact ⟨[c], [], v, [], .one hc, spells_star_one hv, rfl, rfl⟩

/-- Given characters are spelled by themselves. -/
theorem spells_exactly_iff {given : List Char} :
    Spells (σ := σ) (exactly given) word marks ↔ word = given ∧ marks = [] := by
  unfold exactly
  induction given generalizing word marks with
  | nil => exact spells_empty_iff
  | cons c given ih =>
    rw [List.map_cons, chain, spells_seq_iff]
    constructor
    · rintro ⟨u, m, v, n, hu, hv, rfl, rfl⟩
      obtain ⟨d, hd, rfl, rfl⟩ := spells_one_iff.mp hu
      obtain ⟨rfl, rfl⟩ := ih.mp hv
      rw [beq_iff_eq.mp hd]
      exact ⟨rfl, rfl⟩
    · rintro ⟨rfl, rfl⟩
      have hc : (c == c) = true := beq_self_eq_true c
      exact ⟨[c], [], given, [], .one hc, ih.mpr ⟨rfl, rfl⟩, rfl, rfl⟩

/-! ## Words written from data -/

/-- A run of characters of one class, possibly empty. -/
structure Stretch (inside : Char → Bool) where
  /-- The characters. -/
  chars : List Char
  /-- All of them are of the class. -/
  inside_of_mem : ∀ c ∈ chars, inside c = true

/-- A nonempty run of characters of one class. -/
structure Token (inside : Char → Bool) extends Stretch inside where
  /-- There is a character. -/
  nonempty : chars ≠ []

/-- A nonempty run spelled out, its class checked character by character. -/
def Token.ofAll {inside : Char → Bool} (chars : List Char)
    (hall : (!chars.isEmpty && chars.all inside) = true) : Token inside where
  chars := chars
  inside_of_mem := List.all_eq_true.mp (Bool.and_eq_true_iff.mp hall).2
  nonempty := by
    rintro rfl
    exact Bool.noConfusion hall

/-- A run spelled out is spelled so. -/
@[simp]
theorem Token.chars_ofAll {inside : Char → Bool} (chars : List Char)
    (hall : (!chars.isEmpty && chars.all inside) = true) : (Token.ofAll chars hall).chars = chars :=
  rfl

/-- What is not among the characters of a text does not stand in it. -/
theorem not_mem_of_forall {inside : Char → Bool} {word : List Char} {c : Char}
    (hall : ∀ d ∈ word, inside d = true) (hc : inside c = false) : c ∉ word := by
  intro hm
  rw [hall c hm] at hc
  exact Bool.noConfusion hc

/-- A character of another class stands in no run. -/
theorem Stretch.not_mem {inside : Char → Bool} (run : Stretch inside) {c : Char}
    (hc : inside c = false) : c ∉ run.chars :=
  not_mem_of_forall run.inside_of_mem hc

/-- The words of a pattern are the texts written from data, and what is marked
in them are the parts of the data. -/
def Writes {α : Type} (p : Pattern σ) (text : α → List Char) (parts : α → Marks σ) : Prop :=
  ∀ word marks, Spells p word marks ↔ ∃ x, word = text x ∧ marks = parts x

namespace Writes

variable {α β : Type} {text : α → List Char} {parts : α → Marks σ} {text' : β → List Char}
  {parts' : β → Marks σ} {others : List (Pattern σ)}

/-- What is written from data is a word. -/
theorem spells (h : Writes p text parts) (x : α) : Spells p (text x) (parts x) :=
  (h _ _).mpr ⟨x, rfl, rfl⟩

/-- A word is written from data. -/
theorem exists_of_spells (h : Writes p text parts) (hs : Spells p word marks) :
    ∃ x, word = text x ∧ marks = parts x :=
  (h _ _).mp hs

/-- If no text is empty there is no empty word. -/
theorem not_spells_nil (h : Writes p text parts) (hn : ∀ x, text x ≠ []) (marks : Marks σ) :
    ¬Spells p [] marks := by
  intro hs
  obtain ⟨x, he, -⟩ := h.exists_of_spells hs
  exact hn x he.symm

/-- The data may be given in another form, as long as no value is lost. -/
theorem along (h : Writes p text parts) (form : β → α) (hf : Function.Surjective form) :
    Writes p (fun y => text (form y)) (fun y => parts (form y)) := by
  intro word marks
  rw [h word marks]
  constructor
  · rintro ⟨x, rfl, rfl⟩
    obtain ⟨y, rfl⟩ := hf x
    exact ⟨y, rfl, rfl⟩
  · rintro ⟨y, hword, hmarks⟩
    exact ⟨form y, hword, hmarks⟩

/-- Texts and parts may be replaced by equal ones. -/
theorem of_eq (h : Writes p text parts) {text' : α → List Char} {parts' : α → Marks σ}
    (ht : ∀ x, text x = text' x) (hp : ∀ x, parts x = parts' x) : Writes p text' parts' := by
  rwa [← funext ht, ← funext hp]

/-- A repeated character writes the runs of its class. -/
theorem stretch (inside : Char → Bool) :
    Writes (σ := σ) (.star (.one inside)) (fun x : Stretch inside => x.chars) (fun _ => []) := by
  intro word marks
  rw [spells_star_one_iff]
  constructor
  · rintro ⟨hall, hmarks⟩
    exact ⟨⟨word, hall⟩, rfl, hmarks⟩
  · rintro ⟨x, rfl, hmarks⟩
    exact ⟨x.inside_of_mem, hmarks⟩

/-- A character repeated at least once writes the nonempty runs of its class. -/
theorem token (inside : Char → Bool) :
    Writes (σ := σ) (plus (.one inside)) (fun x : Token inside => x.chars) (fun _ => []) := by
  intro word marks
  rw [spells_plus_one_iff]
  constructor
  · rintro ⟨hne, hall, hmarks⟩
    exact ⟨⟨⟨word, hall⟩, hne⟩, rfl, hmarks⟩
  · rintro ⟨x, rfl, hmarks⟩
    exact ⟨x.nonempty, x.inside_of_mem, hmarks⟩

/-- A marked pattern marks what it writes. -/
theorem mark (label : σ) (h : Writes p text parts) :
    Writes (.mark label p) text (fun x => parts x ++ [(label, text x)]) := by
  intro word marks
  rw [spells_mark_iff]
  constructor
  · rintro ⟨inner, hs, rfl⟩
    obtain ⟨x, rfl, rfl⟩ := h.exists_of_spells hs
    exact ⟨x, rfl, rfl⟩
  · rintro ⟨x, rfl, rfl⟩
    exact ⟨parts x, h.spells x, rfl⟩

/-- An optional pattern writes from data that may be missing. -/
theorem optional (h : Writes p text parts) :
    Writes (Pattern.optional p) (fun x : Option α => x.elim [] text)
      (fun x => x.elim [] parts) := by
  intro word marks
  rw [spells_optional_iff, h word marks]
  constructor
  · rintro (⟨x, hword, hmarks⟩ | hnone)
    · exact ⟨some x, hword, hmarks⟩
    · exact ⟨none, hnone⟩
  · rintro ⟨_ | x, hword, hmarks⟩
    · exact .inr ⟨hword, hmarks⟩
    · exact .inl ⟨x, hword, hmarks⟩

/-- One character writes the characters that pass its test. -/
theorem one (accepts : Char → Bool) :
    Writes (σ := σ) (.one accepts) (fun c : { c // accepts c = true } => [c.1]) (fun _ => []) := by
  intro word marks
  rw [spells_one_iff]
  constructor
  · rintro ⟨c, hc, hword, hmarks⟩
    exact ⟨⟨c, hc⟩, hword, hmarks⟩
  · rintro ⟨⟨c, hc⟩, hword, hmarks⟩
    exact ⟨c, hc, hword, hmarks⟩

/-- A choice writes what either of its patterns writes. -/
theorem alt {q : Pattern σ} (h : Writes p text parts) (hq : Writes q text' parts') :
    Writes (.alt p q) (Sum.elim text text') (Sum.elim parts parts') := by
  intro word marks
  rw [spells_alt_iff, h word marks, hq word marks, Sum.exists]
  rfl

/-- A repetition writes any number of what its rounds write. -/
theorem star (h : Writes p text parts) (hn : ∀ x, text x ≠ []) :
    Writes (.star p) (fun xs : List α => xs.flatMap text) (fun xs => xs.flatMap parts) := by
  intro word marks
  constructor
  · intro hs
    generalize he : Pattern.star p = s at hs
    induction hs with
    | starStop => exact ⟨[], rfl, rfl⟩
    | starMore _ round _ _ ih =>
      cases he
      obtain ⟨x, rfl, rfl⟩ := h.exists_of_spells round
      obtain ⟨xs, rfl, rfl⟩ := ih rfl
      exact ⟨x :: xs, rfl, rfl⟩
    | _ => cases he
  · rintro ⟨xs, rfl, rfl⟩
    induction xs with
    | nil => exact .starStop
    | cons x xs ih => exact .starMore (hn x) (h.spells x) ih

/-- No patterns in a row write nothing. -/
theorem nil : Writes (σ := σ) (chain []) (fun _ : Unit => []) (fun _ => []) := by
  intro word marks
  rw [chain, spells_empty_iff]
  exact ⟨fun h => ⟨(), h⟩, fun ⟨_, h⟩ => h⟩

/-- Patterns in a row write what the first one writes and the others behind. -/
theorem cons (h : Writes p text parts) (ho : Writes (chain others) text' parts') :
    Writes (chain (p :: others)) (fun x : α × β => text x.1 ++ text' x.2)
      (fun x => parts x.1 ++ parts' x.2) := by
  intro word marks
  rw [chain, spells_seq_iff]
  constructor
  · rintro ⟨u, m, v, n, hu, hv, rfl, rfl⟩
    obtain ⟨x, rfl, rfl⟩ := h.exists_of_spells hu
    obtain ⟨y, rfl, rfl⟩ := ho.exists_of_spells hv
    exact ⟨(x, y), rfl, rfl⟩
  · rintro ⟨⟨x, y⟩, rfl, rfl⟩
    exact ⟨_, _, _, _, h.spells x, ho.spells y, rfl, rfl⟩

/-- The last of the patterns in a row has nothing behind it. -/
theorem last (h : Writes p text parts) : Writes (chain [p]) text parts := by
  intro word marks
  rw [chain, chain, spells_seq_iff, ← h word marks]
  constructor
  · rintro ⟨u, m, v, n, hu, hv, rfl, rfl⟩
    obtain ⟨rfl, rfl⟩ := spells_empty_iff.mp hv
    rwa [List.append_nil, List.append_nil]
  · intro hs
    exact ⟨word, marks, [], [], hs, .empty, (List.append_nil _).symm, (List.append_nil _).symm⟩

/-- A given text is written in front of what the others write. -/
theorem lit (given : String) (ho : Writes (chain others) text' parts') :
    Writes (chain (Pattern.lit given :: others)) (fun y => given.toList ++ text' y) parts' := by
  intro word marks
  rw [chain, spells_seq_iff]
  constructor
  · rintro ⟨u, m, v, n, hu, hv, rfl, rfl⟩
    obtain ⟨rfl, rfl⟩ := spells_exactly_iff.mp hu
    obtain ⟨y, rfl, rfl⟩ := ho.exists_of_spells hv
    exact ⟨y, rfl, rfl⟩
  · rintro ⟨y, rfl, rfl⟩
    exact ⟨_, _, _, _, spells_exactly_iff.mpr ⟨rfl, rfl⟩, ho.spells y, rfl, rfl⟩

end Writes

end HeaderExports.Pattern
