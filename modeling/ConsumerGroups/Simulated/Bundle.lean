/-! # Bundles

A bundle is one item, or several bundles that belong together. Doing something to every item
of a bundle keeps its shape. The items are done in order, each before those to its right, so
that the shape does not matter for what is done.
-/

namespace ConsumerGroups.Simulated

/-- One item, or bundles that belong together. -/
inductive Bundle (α : Type)
  | one (item : α)
  | together (parts : List (Bundle α))

namespace Bundle

variable {α β : Type}

mutual

/-- The items of a bundle, from left to right. -/
def items : Bundle α → List α
  | one item => [item]
  | together parts => itemsOf parts

/-- The items of several bundles, from left to right. -/
def itemsOf : List (Bundle α) → List α
  | [] => []
  | part :: rest => part.items ++ itemsOf rest

end

mutual

/-- Puts what an action makes of each item in its place. -/
def mapM {m : Type → Type} [Monad m] (f : α → m β) : Bundle α → m (Bundle β)
  | one item => return one (← f item)
  | together parts => return together (← mapParts f parts)

/-- Puts what an action makes of each item of several bundles in its place. -/
def mapParts {m : Type → Type} [Monad m] (f : α → m β) :
    List (Bundle α) → m (List (Bundle β))
  | [] => return []
  | part :: rest => return (← part.mapM f) :: (← mapParts f rest)

end

mutual

/-- What an action makes of a bundle is, from left to right, what it makes of the items. -/
theorem items_mapM {m : Type → Type} [Monad m] [LawfulMonad m] (f : α → m β) :
    (bundle : Bundle α) → items <$> bundle.mapM f = bundle.items.mapM f
  | one item => by simp [mapM, items]
  | together parts => by simp [mapM, items, ← itemsOf_mapParts f parts]

/-- What an action makes of several bundles is, from left to right, what it makes of the items. -/
theorem itemsOf_mapParts {m : Type → Type} [Monad m] [LawfulMonad m] (f : α → m β) :
    (parts : List (Bundle α)) → itemsOf <$> mapParts f parts = (itemsOf parts).mapM f
  | [] => by simp [mapParts, itemsOf]
  | part :: rest => by
    simp [mapParts, itemsOf, ← items_mapM f part, ← itemsOf_mapParts f rest]

end

end Bundle

end ConsumerGroups.Simulated
