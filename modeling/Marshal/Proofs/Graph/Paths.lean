import Marshal.Graph.Basic
import Mathlib.Tactic.SplitIfs

/-!
# Node paths

A node is known by the suffixes on the way down to it, written one after the other. A suffix that
begins with a dot or a bracket or is a question mark, and has none of these after its beginning, can
be told from the suffixes around it; where all suffixes are like that, different ways down have
different paths.
-/

namespace Marshal.Graph

/-- The path that a chain of suffixes leads to. -/
def pathOf (root : String) (chain : List String) : String := chain.foldl (· ++ ·) root

/-- The segment that a suffix makes of its owner's. -/
def segmentAfter (segment suffix : String) : String :=
  match suffix.toList with
  | '.' :: name => String.ofList name
  | _ => segment ++ suffix

/-- The segment that a chain of suffixes ends in. -/
def segmentAlong (segment : String) (chain : List String) : String :=
  chain.foldl segmentAfter segment

/-- The paths that the edges from a path lead to, in the order of the edges. -/
def targets (graph : Graph) (path : String) : List String :=
  (graph.edges.filter fun edge => edge.1 = path).map Prod.snd

/-- The characters that suffixes begin with. -/
def Opens (character : Char) : Prop :=
  character = '.' ∨ character = '[' ∨ character = '?'

instance : DecidablePred Opens := fun _ => inferInstanceAs (Decidable (_ ∨ _ ∨ _))

/-- That a name has no character in it that a suffix begins with. -/
def PlainName (name : String) : Prop := ∀ character ∈ name.toList, ¬ Opens character

-- There are finitely many characters: instance search would go through all of them.
instance : DecidablePred PlainName := fun name =>
  List.decidableBAll (fun character => ¬ Opens character) name.toList

/-- That a suffix opens with its first character only. -/
def PlainSuffix (suffix : String) : Prop :=
  ∃ first rest, suffix.toList = first :: rest ∧ Opens first ∧ ∀ character ∈ rest, ¬ Opens character

theorem PlainName.suffix {name : String} (plain : PlainName name) : PlainSuffix ("." ++ name) :=
  ⟨'.', name.toList, by simp, .inl rfl, plain⟩

theorem plain_content : PlainSuffix "?" := ⟨'?', [], rfl, .inr (.inr rfl), by simp⟩

theorem plain_items : PlainSuffix "[]" := ⟨'[', [']'], rfl, .inr (.inl rfl), by simp [Opens]⟩

theorem path_of_cons (root suffix : String) (chain : List String) :
    pathOf root (suffix :: chain) = pathOf (root ++ suffix) chain := rfl

theorem path_characters (root : String) (chain : List String) :
    (pathOf root chain).toList = root.toList ++ chain.flatMap String.toList := by
  induction chain generalizing root with
  | nil => simp [pathOf]
  | cons suffix rest induction =>
      rw [path_of_cons, induction, String.toList_append, List.append_assoc, List.flatMap_cons]

/-- What follows a plain suffix begins with a character that cannot be in its rest. -/
theorem chain_opens {chain : List String} (plain : ∀ suffix ∈ chain, PlainSuffix suffix) :
    (chain.flatMap String.toList).takeWhile (fun character => ¬ Opens character) = [] := by
  cases chain with
  | nil => rfl
  | cons suffix rest =>
      obtain ⟨first, body, characters, opens, -⟩ := plain suffix List.mem_cons_self
      simp [List.flatMap_cons, characters, opens]

theorem take_suffix {body : List Char} (plain : ∀ character ∈ body, ¬ Opens character)
    {chain : List String} (rest : ∀ suffix ∈ chain, PlainSuffix suffix) :
    (body ++ chain.flatMap String.toList).takeWhile (fun character => ¬ Opens character) = body := by
  rw [List.takeWhile_append_of_pos (by simpa using plain), chain_opens rest, List.append_nil]

/-- Different chains of plain suffixes are written differently. -/
theorem chain_injective {left right : List String} (leftPlain : ∀ suffix ∈ left, PlainSuffix suffix)
    (rightPlain : ∀ suffix ∈ right, PlainSuffix suffix)
    (same : left.flatMap String.toList = right.flatMap String.toList) : left = right := by
  induction left generalizing right with
  | nil =>
      cases right with
      | nil => rfl
      | cons suffix rest =>
          obtain ⟨first, body, characters, -⟩ := rightPlain suffix List.mem_cons_self
          simp [List.flatMap_cons, characters] at same
  | cons suffix rest induction =>
      rw [List.forall_mem_cons] at leftPlain
      obtain ⟨⟨first, body, characters, opens, plain⟩, restPlain⟩ := leftPlain
      cases right with
      | nil => simp [List.flatMap_cons, characters] at same
      | cons other more =>
          rw [List.forall_mem_cons] at rightPlain
          obtain ⟨⟨start, tail, written, -, otherPlain⟩, morePlain⟩ := rightPlain
          rw [List.flatMap_cons, List.flatMap_cons, characters, written, List.cons_append,
            List.cons_append, List.cons.injEq] at same
          obtain ⟨rfl, same⟩ := same
          -- Both suffixes end where the next one opens.
          have bodies : body = tail := by
            rw [← take_suffix plain restPlain, same, take_suffix otherPlain morePlain]
          subst bodies
          have suffixes : suffix = other := String.toList_inj.mp (characters.trans written.symm)
          rw [suffixes, induction restPlain morePlain (List.append_cancel_left same)]

/-- Different chains of plain suffixes lead to different paths. -/
theorem path_injective {root : String} {left right : List String}
    (leftPlain : ∀ suffix ∈ left, PlainSuffix suffix)
    (rightPlain : ∀ suffix ∈ right, PlainSuffix suffix)
    (same : pathOf root left = pathOf root right) : left = right := by
  apply chain_injective leftPlain rightPlain
  have characters := congrArg String.toList same
  rw [path_characters, path_characters] at characters
  exact List.append_cancel_left characters

end Marshal.Graph
