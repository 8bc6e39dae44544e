import Mathlib.Data.List.Nodup
import RmwEcal.Shared.NamesAndTypes

/-!
# The listing of topics

`GetTopics` leaves out what has the same name as a topic before, and with it the type that may be
another one.  `rmw_get_topic_names_and_types` then takes the prefix off the names, and two names
that were different need not be after that.

So the listing is what it should be if that does not come up, `Unambiguous`: topics that are listed
under one name are one topic of eCAL, with one type.  The only other thing it takes is that a C
string can hold the names.
-/

set_option autoImplicit false

namespace RmwEcal

namespace Graph

/-- What a listing should be: no name twice, the names of the snapshot and no others, and every type
under the name of its topic. -/
structure CompleteListing (noDemangle : Bool) (topics : List PbTopic) (entries : List Entry) :
    Prop where
  /-- No name is there twice. -/
  distinct : (entries.map Entry.name).Nodup
  /-- The names are those of the snapshot. -/
  names : ∀ name, name ∈ entries.map Entry.name ↔
    ∃ topic ∈ topics, name = listedTopicName noDemangle topic.tname.toList
  /-- The types are there. -/
  types : ∀ topic ∈ topics, ∃ entry ∈ entries,
    entry.name = listedTopicName noDemangle topic.tname.toList ∧ topic.ttype.toList ∈ entry.types

/-- Topics that are listed under one name have one name in eCAL and one type, and no name or type
has a terminator in it. -/
structure Unambiguous (noDemangle : Bool) (topics : List PbTopic) : Prop where
  /-- The names are C strings, and so are the types. -/
  no_nul : ∀ topic ∈ topics, nul ∉ topic.tname.toList ∧ nul ∉ topic.ttype.toList
  /-- What is listed as one topic is one. -/
  same : ∀ a ∈ topics, ∀ b ∈ topics,
    listedTopicName noDemangle a.tname.toList = listedTopicName noDemangle b.tname.toList →
      a.tname = b.tname ∧ a.ttype = b.ttype

/-! ## What `GetTopics` keeps -/

section GetTopics

variable {processed : List (List Char)} {topics : List PbTopic}

/-- An element is a topic of the snapshot that has not been processed. -/
theorem mem_getTopicsFrom {info : TopicInfo} (h : info ∈ getTopicsFrom processed topics) :
    info.name ∉ processed ∧
      ∃ topic ∈ topics, info.name = topic.tname.toList ∧ info.type = topic.ttype.toList := by
  induction topics generalizing processed with
  | nil => cases h
  | cons topic topics ih =>
    rw [getTopicsFrom] at h
    split_ifs at h with hnew
    · obtain ⟨hprocessed, topic', hmem, heq⟩ := ih h
      exact ⟨hprocessed, topic', .tail _ hmem, heq⟩
    · obtain rfl | h := List.mem_cons.mp h
      · exact ⟨hnew, topic, .head _, rfl, rfl⟩
      · obtain ⟨hprocessed, topic', hmem, heq⟩ := ih h
        exact ⟨fun hin => hprocessed (.tail _ hin), topic', .tail _ hmem, heq⟩

theorem getTopicsFrom_nodup :
    ((getTopicsFrom processed topics).map TopicInfo.name).Nodup := by
  induction topics generalizing processed with
  | nil => exact .nil
  | cons topic topics ih =>
    rw [getTopicsFrom]
    split_ifs
    · exact ih
    · refine List.nodup_cons.mpr ⟨fun hmem => ?_, ih⟩
      obtain ⟨info, hinfo, hname⟩ := List.mem_map.mp hmem
      exact (mem_getTopicsFrom hinfo).1 (hname ▸ .head _)

/-- A name that has not been processed is not lost. -/
theorem exists_mem_getTopicsFrom {topic : PbTopic} (hmem : topic ∈ topics)
    (hnew : topic.tname.toList ∉ processed) :
    ∃ info ∈ getTopicsFrom processed topics, info.name = topic.tname.toList := by
  induction topics generalizing processed with
  | nil => cases hmem
  | cons first topics ih =>
    rw [getTopicsFrom]
    by_cases hname : topic.tname.toList = first.tname.toList
    · rw [if_pos (hname ▸ hnew)]
      exact ⟨_, .head _, hname.symm⟩
    · have hrest : topic ∈ topics := (List.mem_cons.mp hmem).resolve_left fun heq =>
        hname (congrArg (·.tname.toList) heq)
      split_ifs
      · exact ih hrest hnew
      · obtain ⟨info, hinfo, heq⟩ := ih hrest (List.not_mem_cons_of_ne_of_not_mem hname hnew)
        exact ⟨info, .tail _ hinfo, heq⟩

end GetTopics

theorem eq_of_mem_getTopics {topics : List PbTopic} {info info' : TopicInfo}
    (h : info ∈ getTopics topics) (h' : info' ∈ getTopics topics) (hname : info.name = info'.name) :
    info = info' :=
  List.inj_on_of_nodup_map getTopicsFrom_nodup h h' hname

/-! ## Names that are listed -/

section Names

variable {noDemangle : Bool}

/-- Only the prefix is ever taken off. -/
theorem nul_mem_listedTopicName {name : List Char}
    (h : nul ∉ listedTopicName noDemangle name) : nul ∉ name := by
  rw [listedTopicName] at h
  split_ifs at h
  · exact h
  · rw [demangleTopicName, demangle] at h
    split_ifs at h with hstart
    · intro hmem
      rw [← List.take_append_drop 2 name] at hmem
      obtain hmem | hmem := List.mem_append.mp hmem
      · have hin := List.take_subset_take_left name (show 2 ≤ 3 by decide) hmem
        rw [hstart] at hin
        exact absurd hin (by decide)
      · exact h hmem
    · exact h

theorem nul_not_mem_listedTopicName {name : List Char} (h : nul ∉ name) :
    nul ∉ listedTopicName noDemangle name := by
  rw [listedTopicName]
  split_ifs
  · exact h
  · rw [demangleTopicName, demangle]
    split_ifs
    · exact fun hmem => h (List.mem_of_mem_drop hmem)
    · exact h

end Names

/-! ## The listing -/

section Listing

variable {noDemangle : Bool} {topics : List PbTopic}

/-- An element has a topic behind it. -/
theorem Unambiguous.topicElement_eq (h : Unambiguous noDemangle topics) {info : TopicInfo}
    (hinfo : info ∈ getTopics topics) : ∃ topic ∈ topics, info.name = topic.tname.toList ∧
      topicElement noDemangle info =
        ⟨listedTopicName noDemangle topic.tname.toList, [topic.ttype.toList]⟩ := by
  obtain ⟨-, topic, hmem, hname, htype⟩ := mem_getTopicsFrom hinfo
  obtain ⟨hnul, hnul'⟩ := h.no_nul topic hmem
  refine ⟨topic, hmem, hname, ?_⟩
  rw [topicElement, hname, htype, constructCString_eq_self (nul_not_mem_listedTopicName hnul),
    constructCString_eq_self hnul']

theorem Unambiguous.complete (h : Unambiguous noDemangle topics) : CompleteListing noDemangle topics
    ((getTopics topics).map (topicElement noDemangle)) where
  distinct := by
    rw [List.map_map]
    refine List.Nodup.map_on (fun info hinfo info' hinfo' heq => ?_) (.of_map _ getTopicsFrom_nodup)
    obtain ⟨a, ha, hname, helem⟩ := h.topicElement_eq hinfo
    obtain ⟨b, hb, hname', helem'⟩ := h.topicElement_eq hinfo'
    rw [Function.comp_apply, Function.comp_apply, helem, helem'] at heq
    refine eq_of_mem_getTopics hinfo hinfo' ?_
    rw [hname, hname', (h.same a ha b hb heq).1]
  names name := by
    rw [List.map_map, List.mem_map]
    constructor
    · rintro ⟨info, hinfo, rfl⟩
      obtain ⟨topic, hmem, -, helem⟩ := h.topicElement_eq hinfo
      exact ⟨topic, hmem, congrArg Entry.name helem⟩
    · rintro ⟨topic, hmem, rfl⟩
      obtain ⟨info, hinfo, hname⟩ := exists_mem_getTopicsFrom hmem List.not_mem_nil
      obtain ⟨topic', -, hname', helem⟩ := h.topicElement_eq hinfo
      refine ⟨info, hinfo, ?_⟩
      rw [Function.comp_apply, helem, ← hname', hname]
  types topic hmem := by
    obtain ⟨info, hinfo, hname⟩ := exists_mem_getTopicsFrom hmem List.not_mem_nil
    obtain ⟨topic', hmem', hname', helem⟩ := h.topicElement_eq hinfo
    have hlisted : listedTopicName noDemangle topic.tname.toList =
        listedTopicName noDemangle topic'.tname.toList := by rw [← hname', hname]
    refine ⟨_, List.mem_map_of_mem hinfo, ?_, ?_⟩
    · rw [helem, hlisted]
    · rw [helem, (h.same topic hmem topic' hmem' hlisted).2]
      exact .head _

section Complete

variable (h : CompleteListing noDemangle topics ((getTopics topics).map (topicElement noDemangle)))

include h

/-- A name that is listed is a C string. -/
theorem CompleteListing.nul_not_mem {topic : PbTopic} (hmem : topic ∈ topics) :
    nul ∉ topic.tname.toList := by
  obtain ⟨entry, hentry, heq⟩ := List.mem_map.mp ((h.names _).mpr ⟨topic, hmem, rfl⟩)
  obtain ⟨info, -, rfl⟩ := List.mem_map.mp hentry
  have hlisted : nul ∉ listedTopicName noDemangle topic.tname.toList :=
    heq ▸ nul_not_mem_constructCString _
  exact nul_mem_listedTopicName hlisted

/-- What is listed under one name is one element. -/
theorem CompleteListing.eq_of_name {info info' : TopicInfo} (hinfo : info ∈ getTopics topics)
    (hinfo' : info' ∈ getTopics topics)
    (heq : (topicElement noDemangle info).name = (topicElement noDemangle info').name) :
    info = info' := by
  have hdistinct := h.distinct
  rw [List.map_map] at hdistinct
  exact List.inj_on_of_nodup_map hdistinct hinfo hinfo' heq

/-- The element of a topic has its name and its type. -/
theorem CompleteListing.exists_element {topic : PbTopic} (hmem : topic ∈ topics) :
    ∃ info ∈ getTopics topics, info.name = topic.tname.toList ∧
      (topicElement noDemangle info).name = listedTopicName noDemangle topic.tname.toList ∧
      topic.ttype.toList = constructCString info.type := by
  obtain ⟨info, hinfo, hname⟩ := exists_mem_getTopicsFrom hmem List.not_mem_nil
  have hlisted : (topicElement noDemangle info).name =
      listedTopicName noDemangle topic.tname.toList := by
    rw [topicElement, hname]
    exact constructCString_eq_self (nul_not_mem_listedTopicName (h.nul_not_mem hmem))
  -- the type is somewhere under that name, which is here
  obtain ⟨entry, hentry, heq, htype⟩ := h.types topic hmem
  obtain ⟨info', hinfo', rfl⟩ := List.mem_map.mp hentry
  obtain rfl := h.eq_of_name hinfo hinfo' (hlisted.trans heq.symm)
  exact ⟨info, hinfo, hname, hlisted, List.mem_singleton.mp htype⟩

theorem CompleteListing.unambiguous : Unambiguous noDemangle topics where
  no_nul topic hmem := by
    obtain ⟨info, -, -, -, htype⟩ := h.exists_element hmem
    exact ⟨h.nul_not_mem hmem, htype ▸ nul_not_mem_constructCString _⟩
  same a ha b hb heq := by
    obtain ⟨info, hinfo, hname, hlisted, htype⟩ := h.exists_element ha
    obtain ⟨info', hinfo', hname', hlisted', htype'⟩ := h.exists_element hb
    obtain rfl := h.eq_of_name hinfo hinfo' (by rw [hlisted, hlisted', heq])
    exact ⟨String.toList_inj.mp (hname.symm.trans hname'),
      String.toList_inj.mp (htype.trans htype'.symm)⟩

end Complete

end Listing

/-- **The listing is complete exactly if it is unambiguous.** -/
theorem rmwGetTopicNamesAndTypes_complete_iff {allocs : Allocations} {topics : List PbTopic}
    (hallocs : allocs.Succeed 1 (getTopics topics).length) (noDemangle : Bool) :
    ∃ entries, rmwGetTopicNamesAndTypes allocs topics noDemangle =
        (.array (entries.map some), .ok) ∧
      (CompleteListing noDemangle topics entries ↔ Unambiguous noDemangle topics) :=
  ⟨(getTopics topics).map (topicElement noDemangle), fillArray_topics hallocs noDemangle _,
    CompleteListing.unambiguous, Unambiguous.complete⟩

/-! ## Three endpoints -/

/-- A topic of the snapshot, for the examples. -/
def someTopic (tname ttype : String) : PbTopic :=
  ⟨tname, "publisher", ttype, ⟨.reliableReliabilityQos, .keepLastHistoryQos, 1⟩, []⟩

theorem rmwGetTopicNamesAndTypes_complete_chatter :
    ∃ entries, rmwGetTopicNamesAndTypes enoughMemory [someTopic "rt/chatter" "String"] false =
        (.array (entries.map some), .ok) ∧
      (CompleteListing false [someTopic "rt/chatter" "String"] entries ↔
        Unambiguous false [someTopic "rt/chatter" "String"]) :=
  rmwGetTopicNamesAndTypes_complete_iff (enoughMemory_succeed _ _) false

/-- One topic with two types, and one by and one without the conventions of ROS. -/
theorem rmwGetTopicNamesAndTypes_incomplete :
    (∃ entries, rmwGetTopicNamesAndTypes enoughMemory
        [someTopic "rt/chatter" "String", someTopic "rt/chatter" "Header"] true =
          (.array (entries.map some), .ok) ∧
      ¬ CompleteListing true
        [someTopic "rt/chatter" "String", someTopic "rt/chatter" "Header"] entries) ∧
    ∃ entries, rmwGetTopicNamesAndTypes enoughMemory
        [someTopic "rt/chatter" "String", someTopic "/chatter" "String"] false =
          (.array (entries.map some), .ok) ∧
      ¬ CompleteListing false
        [someTopic "rt/chatter" "String", someTopic "/chatter" "String"] entries := by
  refine ⟨⟨[⟨"rt/chatter".toList, ["String".toList]⟩], rfl, fun h => ?_⟩,
    [⟨"/chatter".toList, ["String".toList]⟩, ⟨"/chatter".toList, ["String".toList]⟩], rfl,
    fun h => ?_⟩
  · obtain ⟨entry, hentry, -, htype⟩ := h.types _ (.tail _ (.head _))
    obtain rfl := List.mem_singleton.mp hentry
    revert htype
    decide
  · exact absurd h.distinct (by decide)

end Graph

end RmwEcal
