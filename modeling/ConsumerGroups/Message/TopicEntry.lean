/-! # Entries of a message by topic

The bodies of requests and responses list their blocks under topic names. A name may occur in
several entries, and a reader takes the blocks of all of them in order; entries of other
topics do not concern it.
-/

namespace ConsumerGroups.Message

/-- The blocks that a message holds under one topic name. -/
structure TopicEntry (β : Type) where
  name : String
  blocks : List β
deriving DecidableEq, Repr

/-- All blocks under entries named exactly `topic`, in order. -/
def blocksOf {β : Type} (topic : String) (entries : List (TopicEntry β)) : List β :=
  (entries.filter (·.name = topic)).flatMap (·.blocks)

@[simp] theorem blocksOf_nil {β : Type} (topic : String) :
    blocksOf topic ([] : List (TopicEntry β)) = [] := rfl

/-- An entry contributes its blocks if it has the name, and nothing otherwise. -/
theorem blocksOf_cons {β : Type} (topic : String) (entry : TopicEntry β)
    (entries : List (TopicEntry β)) :
    blocksOf topic (entry :: entries) =
      (if entry.name = topic then entry.blocks else []) ++ blocksOf topic entries := by
  unfold blocksOf
  by_cases hname : entry.name = topic <;> simp [hname]

/-- The first block of a partition under entries named exactly `topic`. -/
def blockOf? {β : Type} (partitionOf : β → Int32) (topic : String) (partition : Int32)
    (entries : List (TopicEntry β)) : Option β :=
  (blocksOf topic entries).find? (partitionOf · = partition)

end ConsumerGroups.Message
