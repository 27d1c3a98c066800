/-
Recall.Search.Ranking — the order of results, and its first few.

`sorted` puts a whole list in order; `top` gives its first items, and when the limit cuts it keeps a
bounded list of the best while it goes through the items once. Both keep items that are equal in the
order in which they came: `sorted` because it is stable, `top` because the place of an item in the
list is a part of what it compares. Scores may be of any type with an order.
-/
import Recall.Query.Needle
import Recall.Search.Score

namespace Recall

/-- The orders of results. -/
inductive Ranking where
  /-- The highest score first, and of equal scores the latest. -/
  | relevance
  /-- The latest first. -/
  | newest
  /-- The earliest first. -/
  | oldest
  deriving DecidableEq, Repr

namespace Ranking

/-- The order with a name, for a needle. Without a phrase nothing has a score, so the newest come
first then, as they do under any other name. -/
def ofName (sortBy : String) (n : Needle) : Ranking :=
  if sortBy = "oldest" then .oldest
  else if sortBy = "relevance" ∧ n.phrase ≠ "" then .relevance
  else .newest

variable {α σ : Type} [LT σ] [DecidableLT σ] [DecidableEq σ]

/-- Whether one item may stand before another. -/
def le (r : Ranking) (score : α → σ) (time : α → Int) (a b : α) : Bool :=
  match r with
  | .oldest => time a ≤ time b
  | .newest => time b ≤ time a
  | .relevance => score b < score a || (score a == score b && time b ≤ time a)

/-- The items in order. -/
def sorted (r : Ranking) (score : α → σ) (time : α → Int) (items : List α) : List α :=
  items.mergeSort (r.le score time)

/-- Puts a row behind every row that may stand before it. -/
def insert (le : α → α → Bool) (a : α) : List α → List α
  | [] => [a]
  | b :: r => if le b a then b :: insert le a r else a :: b :: r

/-- The `n` smallest rows in order, found in one pass that keeps `n` of them. -/
def smallest (le : α → α → Bool) (n : Nat) (rows : List α) : List α :=
  rows.foldl (fun best row => (insert le row best).take n) []

/-- The first `limit` items in order; none for a limit that is not positive. -/
def top (r : Ranking) (score : α → σ) (time : α → Int) (limit : Int) (items : List α) : List α :=
  if limit ≤ 0 then []
  else if items.length ≤ limit then r.sorted score time items
  else (smallest (List.zipIdxLE (r.le score time)) limit.toNat items.zipIdx).map Prod.fst

end Ranking

end Recall
