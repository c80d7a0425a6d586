import Mathlib.Data.List.Flatten
import Mathlib.Data.List.Forall2
import Mathlib.Data.List.Nodup
import Mathlib.Data.List.Perm.Basic
import Mathlib.Data.Prod.Basic
import Mathlib.Logic.Relation
import ConsumerGroups.Message.ListOffsets
import ConsumerGroups.Message.OffsetCommit
import ConsumerGroups.Message.OffsetFetch

/-! # What the readers of a message depend on

A reader looks for the blocks under one topic, or for the first of them that is about one partition.
It does not matter how these blocks are put into entries, nor what else the message holds. Their
order matters only where there are several for one partition.
-/

namespace ConsumerGroups.Message

variable {β γ ρ : Type}

/-! ## Blocks of concern -/

/-- All blocks of a message, each with the name that it stands under, in order. -/
def placed (entries : List (TopicEntry β)) : List (String × β) :=
  entries.flatMap fun entry => entry.blocks.map (entry.name, ·)

/-- A block stands under a topic. -/
def ofTopic (topic : String) (place : String × β) : Bool :=
  place.1 = topic

/-- A block stands under a topic and is about a partition. -/
def ofPartition (partitionOf : β → Int32) (topic : String) (partition : Int32)
    (place : String × β) : Bool :=
  place.1 = topic ∧ partitionOf place.2 = partition

@[simp] theorem placed_nil : placed ([] : List (TopicEntry β)) = [] := rfl

@[simp] theorem placed_cons (entry : TopicEntry β) (entries : List (TopicEntry β)) :
    placed (entry :: entries) = entry.blocks.map (entry.name, ·) ++ placed entries := rfl

@[simp] theorem placed_append (first second : List (TopicEntry β)) :
    placed (first ++ second) = placed first ++ placed second := by
  simp [placed]

theorem filter_ofTopic_placed (topic : String) (entries : List (TopicEntry β)) :
    (placed entries).filter (ofTopic topic) = (blocksOf topic entries).map (topic, ·) := by
  induction entries with
  | nil => rfl
  | cons entry rest ih =>
      rw [placed_cons, List.filter_append, blocksOf_cons, List.map_append, ih]
      congr 1
      by_cases hname : entry.name = topic <;>
        simp [hname, ofTopic, List.filter_map, Function.comp_def]

theorem filter_ofPartition_placed (partitionOf : β → Int32) (topic : String) (partition : Int32)
    (entries : List (TopicEntry β)) :
    (placed entries).filter (ofPartition partitionOf topic partition) =
      ((blocksOf topic entries).filter (partitionOf · = partition)).map (topic, ·) := by
  have hboth : ofPartition partitionOf topic partition =
      fun place => decide (partitionOf place.2 = partition) && ofTopic topic place := by
    funext place
    simp [ofPartition, ofTopic, and_comm]
  rw [hboth, ← List.filter_filter, filter_ofTopic_placed, List.filter_map]
  rfl

/-! ## Changes of no concern -/

/-- A change at one place of a message that leaves alone what is of concern. Taken backwards, such a
change deletes what it puts in and merges what it splits; what is put in at another place than it
was deleted from has been moved. -/
inductive Touch (concern : String × β → Bool) : List (TopicEntry β) → List (TopicEntry β) → Prop
  | entry (before after : List (TopicEntry β)) {added : TopicEntry β}
      (hadded : ∀ block ∈ added.blocks, ¬concern (added.name, block)) :
      Touch concern (before ++ after) (before ++ added :: after)
  | block (before after : List (TopicEntry β)) {name : String} (first second : List β) {added : β}
      (hadded : ¬concern (name, added)) :
      Touch concern (before ++ ⟨name, first ++ second⟩ :: after)
        (before ++ ⟨name, first ++ added :: second⟩ :: after)
  | split (before after : List (TopicEntry β)) (name : String) (first second : List β) :
      Touch concern (before ++ ⟨name, first ++ second⟩ :: after)
        (before ++ ⟨name, first⟩ :: ⟨name, second⟩ :: after)

/-- Messages that are made from each other by changes of no concern, in either direction. -/
def Alike (concern : String × β → Bool) : List (TopicEntry β) → List (TopicEntry β) → Prop :=
  Relation.EqvGen (Touch concern)

section Alike

variable {concern : String × β → Bool} {entries others : List (TopicEntry β)}

theorem Touch.alike (htouch : Touch concern entries others) : Alike concern entries others :=
  .rel _ _ htouch

theorem Alike.symm (halike : Alike concern entries others) : Alike concern others entries :=
  Relation.EqvGen.symm _ _ halike

theorem Alike.trans {more : List (TopicEntry β)} (halike : Alike concern entries others)
    (hmore : Alike concern others more) : Alike concern entries more :=
  Relation.EqvGen.trans _ _ _ halike hmore

theorem Touch.cons (htouch : Touch concern entries others) (entry : TopicEntry β) :
    Touch concern (entry :: entries) (entry :: others) := by
  cases htouch with
  | entry before after hadded => exact .entry (entry :: before) after hadded
  | block before after first second hadded =>
      exact .block (entry :: before) after first second hadded
  | split before after name first second => exact .split (entry :: before) after name first second

theorem Alike.cons (halike : Alike concern entries others) (entry : TopicEntry β) :
    Alike concern (entry :: entries) (entry :: others) := by
  induction halike with
  | rel _ _ htouch => exact (htouch.cons entry).alike
  | refl => exact .refl _
  | symm _ _ _ ih => exact ih.symm
  | trans _ _ _ _ _ ih ih' => exact ih.trans ih'

theorem Touch.filter_placed (htouch : Touch concern entries others) :
    (placed entries).filter concern = (placed others).filter concern := by
  cases htouch with
  | entry before after hadded =>
      have hnone := List.filter_eq_nil_iff.mpr fun place hplace => by
        obtain ⟨block, hblock, rfl⟩ := List.mem_map.mp hplace
        exact hadded block hblock
      simp [hnone]
  | block before after first second hadded => simp [hadded]
  | split => simp

theorem Alike.filter_placed (halike : Alike concern entries others) :
    (placed entries).filter concern = (placed others).filter concern := by
  induction halike with
  | rel _ _ htouch => exact htouch.filter_placed
  | refl => rfl
  | symm _ _ _ ih => exact ih.symm
  | trans _ _ _ _ _ ih ih' => exact ih.trans ih'

/-- A message with an entry of its own for each block. -/
def spread (places : List (String × β)) : List (TopicEntry β) :=
  places.map fun place => ⟨place.1, [place.2]⟩

/-- A message is like the one that holds only the blocks of concern, each in an entry of its own. -/
theorem alike_spread (concern : String × β → Bool) (entries : List (TopicEntry β)) :
    Alike concern entries (spread ((placed entries).filter concern)) := by
  induction entries with
  | nil => exact .refl _
  | cons entry rest ih =>
      rcases entry with ⟨name, blocks⟩
      induction blocks with
      | nil =>
          have hempty : Touch concern rest (⟨name, []⟩ :: rest) := .entry [] rest (by simp)
          exact hempty.alike.symm.trans ih
      | cons block blocks ihblocks =>
          -- The first block is split off, and deleted unless it is of concern.
          have hsplit : Touch concern (⟨name, block :: blocks⟩ :: rest)
              (⟨name, [block]⟩ :: ⟨name, blocks⟩ :: rest) :=
            .split [] rest name [block] blocks
          refine hsplit.alike.trans ?_
          by_cases hconcern : concern (name, block)
          · simpa [hconcern, spread] using ihblocks.cons ⟨name, [block]⟩
          · have hadded : Touch concern (⟨name, blocks⟩ :: rest)
                (⟨name, [block]⟩ :: ⟨name, blocks⟩ :: rest) :=
              .entry [] _ (by simpa using hconcern)
            refine hadded.alike.symm.trans ?_
            simpa [hconcern] using ihblocks

/-- Changes of no concern lead from a message to exactly those that hold the same blocks of concern
in the same order, however else they differ. -/
theorem alike_iff :
    Alike concern entries others ↔
      (placed entries).filter concern = (placed others).filter concern := by
  refine ⟨Alike.filter_placed, fun hsame => (alike_spread concern entries).trans ?_⟩
  rw [hsame]
  exact (alike_spread concern others).symm

/-- Messages are alike for a partition if they hold the same blocks for it under the topic. -/
theorem alike_ofPartition_iff {partitionOf : β → Int32} {topic : String} {partition : Int32} :
    Alike (ofPartition partitionOf topic partition) entries others ↔
      (blocksOf topic entries).filter (partitionOf · = partition) =
        (blocksOf topic others).filter (partitionOf · = partition) := by
  rw [alike_iff, filter_ofPartition_placed, filter_ofPartition_placed]
  exact (List.map_injective_iff.mpr (Prod.mk_right_injective topic)).eq_iff

/-- Messages are alike for a topic if they hold the same blocks under it. -/
theorem alike_ofTopic_iff {topic : String} :
    Alike (ofTopic topic) entries others ↔ blocksOf topic entries = blocksOf topic others := by
  rw [alike_iff, filter_ofTopic_placed, filter_ofTopic_placed]
  exact (List.map_injective_iff.mpr (Prod.mk_right_injective topic)).eq_iff

end Alike

/-! ## Messages in another order -/

/-- No two blocks of a message are about the same partition of the same topic. -/
def Distinct (partitionOf : β → Int32) (entries : List (TopicEntry β)) : Prop :=
  ((placed entries).map fun place => (place.1, partitionOf place.2)).Nodup

/-- The entries of a message come in another order, and so do the blocks of each. -/
def Shuffled (entries others : List (TopicEntry β)) : Prop :=
  ∃ moved, entries.Perm moved ∧
    List.Forall₂ (fun entry other => entry.name = other.name ∧ entry.blocks.Perm other.blocks)
      moved others

theorem Shuffled.placed_perm {entries others : List (TopicEntry β)}
    (hshuffled : Shuffled entries others) : (placed entries).Perm (placed others) := by
  obtain ⟨moved, hmoved, hblocks⟩ := hshuffled
  have hplaced : (placed moved).Perm (placed others) := by
    clear hmoved
    induction hblocks with
    | nil => exact .nil
    | cons hentry _ ih =>
        obtain ⟨hname, hperm⟩ := hentry
        rw [placed_cons, placed_cons, hname]
        exact (hperm.map _).append ih
  exact (hmoved.flatMap_right _).trans hplaced

/-- A message without a second block for any partition holds at most one for each. -/
theorem Distinct.filter_length_le {partitionOf : β → Int32} {entries : List (TopicEntry β)}
    (hdistinct : Distinct partitionOf entries) (topic : String) (partition : Int32) :
    ((placed entries).filter (ofPartition partitionOf topic partition)).length ≤ 1 := by
  have hfound : ((placed entries).filter (ofPartition partitionOf topic partition)).Sublist
      (placed entries) := List.filter_sublist
  have hnodup := (hfound.map fun place : String × β => (place.1, partitionOf place.2)).nodup
    hdistinct
  have hsame : ∀ place ∈ (placed entries).filter (ofPartition partitionOf topic partition),
      (place.1, partitionOf place.2) = (topic, partition) := by
    intro place hplace
    simpa [ofPartition] using (List.mem_filter.mp hplace).2
  rwa [List.map_eq_replicate_iff.mpr hsame, List.nodup_replicate] at hnodup

/-- Where each partition has one block at most, the order of a message is of no concern to whoever
looks for a partition. -/
theorem Shuffled.alike {partitionOf : β → Int32} {entries others : List (TopicEntry β)}
    (hshuffled : Shuffled entries others) (hdistinct : Distinct partitionOf entries)
    (topic : String) (partition : Int32) :
    Alike (ofPartition partitionOf topic partition) entries others := by
  have hperm := hshuffled.placed_perm.filter (ofPartition partitionOf topic partition)
  have hlength := hdistinct.filter_length_le topic partition
  rw [alike_iff]
  match hfound : (placed entries).filter (ofPartition partitionOf topic partition) with
  | [] => rw [hfound] at hperm; exact (List.nil_perm.mp hperm).symm
  | [place] => rw [hfound] at hperm; exact List.singleton_perm.mp hperm
  | _ :: _ :: _ => simp [hfound] at hlength

/-! ## Readers -/

/-- What is read from a message depends on nothing but the first block for a partition, of those
under entries of the topic. So it stays the same through all changes of no concern to the partition,
and, where each partition has one block at most, in every order. -/
structure HeedsFirst (partitionOf : β → Int32) (entriesOf : ρ → List (TopicEntry β))
    (topic : String) (partition : Int32) (read : ρ → γ) : Prop where
  first : ∀ message other,
    ((blocksOf topic (entriesOf message)).filter (partitionOf · = partition)).head? =
      ((blocksOf topic (entriesOf other)).filter (partitionOf · = partition)).head? →
    read message = read other
  alike : ∀ message other,
    Alike (ofPartition partitionOf topic partition) (entriesOf message) (entriesOf other) →
    read message = read other
  shuffled : ∀ message other, Distinct partitionOf (entriesOf message) →
    Shuffled (entriesOf message) (entriesOf other) → read message = read other

/-- Whoever reads nothing but the block that is found heeds the first one. -/
theorem heedsFirst_of_blockOf? {partitionOf : β → Int32} {entriesOf : ρ → List (TopicEntry β)}
    {topic : String} {partition : Int32} {read : ρ → γ}
    (hread : ∀ message other, blockOf? partitionOf topic partition (entriesOf message) =
      blockOf? partitionOf topic partition (entriesOf other) → read message = read other) :
    HeedsFirst partitionOf entriesOf topic partition read := by
  have hfirst : ∀ message other,
      ((blocksOf topic (entriesOf message)).filter (partitionOf · = partition)).head? =
        ((blocksOf topic (entriesOf other)).filter (partitionOf · = partition)).head? →
      read message = read other := by
    intro message other hsame
    apply hread
    rwa [blockOf?, blockOf?, ← List.head?_filter, ← List.head?_filter]
  have halike : ∀ message other,
      Alike (ofPartition partitionOf topic partition) (entriesOf message) (entriesOf other) →
      read message = read other :=
    fun message other halike =>
      hfirst message other (congrArg List.head? (alike_ofPartition_iff.mp halike))
  exact ⟨hfirst, halike, fun message other hdistinct hshuffled =>
    halike message other (hshuffled.alike hdistinct topic partition)⟩

/-- The readers of offsets and of marks heed the first block for their partition, and nothing else
in a response. The results of a commit are the same in exactly those responses that are made from
each other by changes of no concern to the topic. -/
theorem readers_heed_concerns :
    (∀ topic partition, HeedsFirst ListOffsets.Block.partition ListOffsets.Response.topics
      topic partition (·.offsetOf topic partition)) ∧
    (∀ topic partition, HeedsFirst OffsetFetch.Block.partition OffsetFetch.Response.topics
      topic partition (·.blockOf? topic partition)) ∧
    ∀ (topic : String) (response other : OffsetCommit.Response),
      Alike (ofTopic topic) response.topics other.topics ↔
        response.resultsOf topic = other.resultsOf topic := by
  refine ⟨fun topic partition => heedsFirst_of_blockOf? fun response other hsame => ?_,
    fun topic partition => heedsFirst_of_blockOf? fun response other hsame => hsame,
    fun topic response other => alike_ofTopic_iff⟩
  unfold ListOffsets.Response.offsetOf
  rw [hsame]

/-- The offset of a partition with a second block behind its first, and the marks of a response in
which every partition has one block. -/
theorem readers_heed_concerns_when_moved :
    let offsets : ListOffsets.Response :=
      { topics :=
          [⟨"u", [{ partition := 1, code := 3 }]⟩,
            ⟨"t", [{ partition := 1, offsets := [7] }]⟩,
            ⟨"t", [{ partition := 0, code := 6 }, { partition := 1, code := 5 }]⟩] }
    let regrouped : ListOffsets.Response :=
      { topics :=
          [⟨"t", [{ partition := 2 }, { partition := 1, offsets := [7] },
            { partition := 1, code := 5 }, { partition := 0, code := 6 }]⟩] }
    let marks : OffsetFetch.Response :=
      { topics :=
          [⟨"t", [{ partition := 1, offset := 8 }, { partition := 0, offset := 9 }]⟩,
            ⟨"u", [{ partition := 1, offset := 2 }]⟩] }
    let shuffled : OffsetFetch.Response :=
      { topics :=
          [⟨"u", [{ partition := 1, offset := 2 }]⟩,
            ⟨"t", [{ partition := 0, offset := 9 }, { partition := 1, offset := 8 }]⟩] }
    (Alike (ofPartition ListOffsets.Block.partition "t" 1) offsets.topics regrouped.topics ∧
        offsets.offsetOf "t" 1 = regrouped.offsetOf "t" 1) ∧
      Distinct OffsetFetch.Block.partition marks.topics ∧ Shuffled marks.topics shuffled.topics ∧
        marks.blockOf? "t" 1 = shuffled.blockOf? "t" 1 := by
  intro offsets regrouped marks shuffled
  have halike : Alike (ofPartition ListOffsets.Block.partition "t" 1) offsets.topics
      regrouped.topics := alike_ofPartition_iff.mpr (by decide)
  have hdistinct : Distinct OffsetFetch.Block.partition marks.topics := by
    unfold Distinct
    decide
  have hshuffled : Shuffled marks.topics shuffled.topics :=
    ⟨_, .swap _ _ _, .cons ⟨rfl, .refl _⟩ (.cons ⟨rfl, .swap _ _ _⟩ .nil)⟩
  exact ⟨⟨halike, (readers_heed_concerns.1 "t" 1).alike _ _ halike⟩, hdistinct, hshuffled,
    (readers_heed_concerns.2.1 "t" 1).shuffled _ _ hdistinct hshuffled⟩

end ConsumerGroups.Message
