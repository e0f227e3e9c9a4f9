import Mathlib.Data.List.Infix

/-!
A list as its maximal runs of elements of a class, which can be empty, with the other elements
between them.
-/
namespace Library.ClassRuns

variable {α : Type} {test : α → Bool}

/-- Elements of the class alone. -/
structure Run (test : α → Bool) where
  items : List α
  test_items : ∀ a ∈ items, test a = true

/-- An element that is not of the class. -/
structure Other (test : α → Bool) where
  item : α
  test_item : test item = false

/-- The first run, and each element that ends a run with the run behind it. Every element that
is not of the class ends one, so no run goes on before or behind. -/
structure Runs (test : α → Bool) where
  first : Run test
  others : List (Other test × Run test)

/-- The list with each of its runs replaced. -/
def Runs.replaced (runs : Runs test) (replacement : List α → List α) : List α :=
  replacement runs.first.items ++
    runs.others.flatMap fun other => other.1.item :: replacement other.2.items

def Runs.items (runs : Runs test) : List α := runs.replaced id

/-- Every list has its runs. -/
theorem exists_runs (test : α → Bool) (items : List α) :
    ∃ runs : Runs test, runs.items = items := by
  induction items with
  | nil => exact ⟨⟨⟨[], nofun⟩, []⟩, rfl⟩
  | cons a items ih =>
    obtain ⟨runs, rfl⟩ := ih
    cases ha : test a with
    | true =>
      exact ⟨⟨⟨a :: runs.first.items, List.forall_mem_cons.mpr ⟨ha, runs.first.test_items⟩⟩,
        runs.others⟩, rfl⟩
    | false => exact ⟨⟨⟨[], nofun⟩, (⟨a, ha⟩, runs.first) :: runs.others⟩, rfl⟩

/-- A word of the class is on one side of any other element. -/
theorem infix_append_cons {word front back : List α} {a : α} (hword : ∀ b ∈ word, test b = true)
    (ha : test a = false) (h : word <:+: front ++ a :: back) :
    word <:+: front ∨ word <:+: back := by
  have hnot : ∀ {part : List α}, part ++ [a] <+: word → False := by
    intro part hpart
    rw [hword a (hpart.subset (List.mem_append_right _ List.mem_cons_self))] at ha
    cases ha
  induction front with
  | nil =>
    rcases List.infix_cons_iff.mp h with hstarts | hback
    · rcases List.prefix_cons_iff.mp hstarts with rfl | ⟨rest, rfl, -⟩
      · exact .inl List.nil_infix
      · exact (@hnot [] (List.prefix_append [a] rest)).elim
    · exact .inr hback
  | cons b front ih =>
    rcases List.infix_cons_iff.mp h with hstarts | hrest
    · have hborder : b :: front ++ [a] <+: b :: (front ++ a :: back) :=
        ⟨back, by rw [List.append_assoc]; rfl⟩
      rcases List.prefix_or_prefix_of_prefix hstarts hborder with hword | hborder
      · rcases List.prefix_concat_iff.mp hword with heq | hfront
        · exact (hnot ⟨[], (List.append_nil _).trans heq.symm⟩).elim
        · exact .inl hfront.isInfix
      · exact (hnot hborder).elim
    · exact (ih hrest).imp_left List.infix_cons

end Library.ClassRuns
