import Mathlib.Data.List.Basic

/-!
First-fit assignment between two lists. Each request, in order, takes the first
remaining item it accepts. The same assignment is found from the other side: each
item, in order, is taken by the first free request that accepts it. The second
reading decides from the inputs alone which items stay behind.
-/
namespace Library.FirstFit

variable {α β : Type*} (accepts : β → α → Bool)

/-- One request takes the first item it accepts, if there is one. -/
def serve (items : List α) (request : β) : List α := items.eraseP (accepts request)

/-- The items no request has taken, the requests being served in order. -/
def remaining (items : List α) (requests : List β) : List α :=
  requests.foldl (serve accepts) items

/-- The same items found from the other side: an item stays when no free request
accepts it, and otherwise uses up the first one that does. -/
def untaken : List α → List β → List α
  | [], _ => []
  | item :: items, requests =>
      if requests.any (accepts · item) then
        untaken items (requests.eraseP (accepts · item))
      else item :: untaken items requests

theorem remaining_nil (requests : List β) : remaining accepts [] requests = [] := by
  induction requests with
  | nil => rfl
  | cons request rest ih =>
    rw [remaining, List.foldl_cons, serve, List.eraseP_nil]
    exact ih

theorem remaining_append (items : List α) (first second : List β) :
    remaining accepts items (first ++ second) =
      remaining accepts (remaining accepts items first) second := by
  unfold remaining
  rw [List.foldl_append]

theorem remaining_sublist (items : List α) (requests : List β) :
    (remaining accepts items requests).Sublist items := by
  induction requests generalizing items with
  | nil => exact List.Sublist.refl items
  | cons request rest ih =>
    exact (ih (serve accepts items request)).trans List.eraseP_sublist

/-- A head item that no request accepts stays, and the others do not notice it. -/
theorem remaining_cons_of_rejected (item : α) (items : List α) (requests : List β)
    (h : ∀ request ∈ requests, ¬ accepts request item) :
    remaining accepts (item :: items) requests =
      item :: remaining accepts items requests := by
  induction requests generalizing items with
  | nil => rfl
  | cons request rest ih =>
    have hhead : ¬ accepts request item := h request List.mem_cons_self
    have htail := ih (serve accepts items request)
      (fun other hother => h other (List.mem_cons_of_mem request hother))
    calc remaining accepts (item :: items) (request :: rest)
        = remaining accepts (serve accepts (item :: items) request) rest := rfl
      _ = remaining accepts (item :: serve accepts items request) rest := by
          rw [serve, List.eraseP_cons_of_neg hhead, serve]
      _ = item :: remaining accepts items (request :: rest) := htail

/-- The first request that accepts a head item is used up by it. -/
theorem remaining_cons_of_accepted (item : α) (items : List α) (before after : List β)
    (request : β) (hbefore : ∀ other ∈ before, ¬ accepts other item)
    (hrequest : accepts request item) :
    remaining accepts (item :: items) (before ++ request :: after) =
      remaining accepts items (before ++ after) := by
  rw [remaining_append, remaining_cons_of_rejected accepts item items before hbefore,
    remaining_append]
  change remaining accepts
    (serve accepts (item :: remaining accepts items before) request) after = _
  rw [serve, List.eraseP_cons_of_pos hrequest]

/-- Both sides of the assignment leave the same items behind. -/
theorem remaining_eq_untaken (items : List α) (requests : List β) :
    remaining accepts items requests = untaken accepts items requests := by
  induction items generalizing requests with
  | nil => exact remaining_nil accepts requests
  | cons item items ih =>
    rw [untaken]
    split
    · rename_i hany
      obtain ⟨request, hmem, haccepts⟩ := List.any_eq_true.mp hany
      obtain ⟨found, before, after, hbefore, hfound, heq, herase⟩ :=
        List.exists_of_eraseP (p := (accepts · item)) hmem haccepts
      rw [herase, heq, remaining_cons_of_accepted accepts item items before after found
        hbefore hfound]
      exact ih (before ++ after)
    · rename_i hany
      have hnone : ∀ request ∈ requests, ¬ accepts request item := by
        intro request hmem haccepts
        exact hany (List.any_eq_true.mpr ⟨request, hmem, haccepts⟩)
      rw [remaining_cons_of_rejected accepts item items requests hnone, ih requests]

end Library.FirstFit
