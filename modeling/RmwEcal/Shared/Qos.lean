import Mathlib.Data.Int.Notation
import Mathlib.Data.Nat.Notation
import Mathlib.Tactic.SplitIfs

/-!
# Quality of service

What becomes of a `rmw_qos_profile_t` that a publisher or a subscription is created with.  The two
policies that eCAL knows are translated into its words, `toECalHistory` and `toECalReliability`, or
left to eCAL where the profile does not say; the profile that the endpoint reports as its own is
translated back from what eCAL was given.  Everything else is replaced by constants.

`createQOS` is `CreatePublisherQOS` and `CreateSubscriberQOS`, which differ only in which of eCAL's
two structs they fill, and so in the defaults.
-/

set_option autoImplicit false

namespace RmwEcal

/-- What the code throws, with its text. -/
inductive Exception where
  | logicError (what : String)
  | invalidArgument (what : String)
  | runtimeError (what : String)
  deriving DecidableEq, Repr

namespace Qos

/-! ## The profile of rmw -/

/-- `rmw_qos_history_policy_t`. -/
inductive History where
  | systemDefault | keepLast | keepAll | unknown
  deriving DecidableEq, Repr

/-- `rmw_qos_reliability_policy_t`. -/
inductive Reliability where
  | systemDefault | reliable | bestEffort | unknown
  deriving DecidableEq, Repr

/-- `rmw_qos_durability_policy_t`. -/
inductive Durability where
  | systemDefault | transientLocal | volatile | unknown
  deriving DecidableEq, Repr

/-- `rmw_qos_liveliness_policy_t`. -/
inductive Liveliness where
  | systemDefault | automatic | manualByNode | manualByTopic | unknown
  deriving DecidableEq, Repr

/-- `rmw_time_t`. -/
structure Time where
  sec : ℕ
  nsec : ℕ
  deriving DecidableEq, Repr

/-- `rmw_qos_profile_t`. -/
structure Profile where
  history : History
  depth : ℕ
  reliability : Reliability
  durability : Durability
  deadline : Time
  lifespan : Time
  liveliness : Liveliness
  livelinessLeaseDuration : Time
  avoidRosNamespaceConventions : Bool
  deriving DecidableEq, Repr

/-! ## The words of eCAL -/

/-- `eQOSPolicy_HistoryKind`. -/
inductive HistoryKind where
  | keepLastHistoryQos | keepAllHistoryQos
  deriving DecidableEq, Repr

/-- `eQOSPolicy_Reliability`. -/
inductive ReliabilityKind where
  | bestEffortReliabilityQos | reliableReliabilityQos
  deriving DecidableEq, Repr

/-- `SWriterQOS` or `SReaderQOS`. -/
structure ECalQOS where
  historyKind : HistoryKind
  historyKindDepth : ℤ
  reliability : ReliabilityKind
  deriving DecidableEq, Repr

/-- What the constructors of eCAL's structs put into them. -/
structure Defaults where
  /-- `SWriterQOS{}`. -/
  writer : ECalQOS
  /-- `SReaderQOS{}`. -/
  reader : ECalQOS

/-! ## From one to the other -/

/-- `std::numeric_limits<int>::max()`. -/
def maxInt : ℕ := 2147483647

/-- `ToECalDepth`. -/
def toECalDepth (depth : ℕ) : Except Exception ℤ :=
  if depth > maxInt then .error (.logicError "Maximum history depth value is: 2147483647")
  else .ok depth

/-- `IsPolicySpecified`. -/
def isHistorySpecified (policy : History) : Bool :=
  policy != .systemDefault && policy != .unknown

/-- `IsPolicySpecified`. -/
def isReliabilitySpecified (policy : Reliability) : Bool :=
  policy != .systemDefault && policy != .unknown

/-- `ToECalPolicy`. -/
def toECalHistory : History → Except Exception HistoryKind
  | .keepLast => .ok .keepLastHistoryQos
  | .keepAll => .ok .keepAllHistoryQos
  | .systemDefault | .unknown => .error (.invalidArgument "Invalid history policy value.")

/-- `ToECalPolicy`. -/
def toECalReliability : Reliability → Except Exception ReliabilityKind
  | .bestEffort => .ok .bestEffortReliabilityQos
  | .reliable => .ok .reliableReliabilityQos
  | .systemDefault | .unknown => .error (.invalidArgument "Invalid reliability policy value.")

/-- `ToRosPolicy`. -/
def toRosHistory : HistoryKind → History
  | .keepLastHistoryQos => .keepLast
  | .keepAllHistoryQos => .keepAll

/-- `ToRosPolicy`. -/
def toRosReliability : ReliabilityKind → Reliability
  | .bestEffortReliabilityQos => .bestEffort
  | .reliableReliabilityQos => .reliable

/-- `pub_name_prefix`. -/
def pubNamePrefix : String := "rt"

/-- `MangleTopicName`. -/
def mangleTopicName (topicName : String) : String := pubNamePrefix ++ topicName

/-- `PublisherQOS` or `SubscriberQOS`. -/
structure EndpointQOS where
  rmwQos : Profile
  ecalQos : ECalQOS
  topicNamePrefix : String
  deriving DecidableEq, Repr

/-- The profile that an endpoint reports. -/
def reportedProfile (profile : Profile) (ecalQos : ECalQOS) : Profile where
  history := toRosHistory ecalQos.historyKind
  depth := profile.depth
  reliability := toRosReliability ecalQos.reliability
  durability := .volatile
  deadline := ⟨0, 0⟩
  lifespan := ⟨0, 0⟩
  liveliness := .unknown
  livelinessLeaseDuration := ⟨0, 0⟩
  avoidRosNamespaceConventions := profile.avoidRosNamespaceConventions

/-- `history_kind` after the first `if` of `createQOS`. -/
def chosenHistory (ecalQos : ECalQOS) (policy : History) : Except Exception HistoryKind :=
  if isHistorySpecified policy then toECalHistory policy else .ok ecalQos.historyKind

/-- `reliability` after the second. -/
def chosenReliability (ecalQos : ECalQOS) (policy : Reliability) :
    Except Exception ReliabilityKind :=
  if isReliabilitySpecified policy then toECalReliability policy else .ok ecalQos.reliability

/-- `CreatePublisherQOS` and `CreateSubscriberQOS`, given what is in the struct of eCAL before. -/
def createQOS (ecalQos : ECalQOS) (profile : Profile) : Except Exception EndpointQOS := do
  let historyKind ← chosenHistory ecalQos profile.history
  let reliability ← chosenReliability ecalQos profile.reliability
  let historyKindDepth ← toECalDepth profile.depth
  let ecalQos : ECalQOS := ⟨historyKind, historyKindDepth, reliability⟩
  .ok ⟨reportedProfile profile ecalQos, ecalQos,
    if profile.avoidRosNamespaceConventions then "" else pubNamePrefix⟩

/-- `CreatePublisherQOS`. -/
def createPublisherQOS (defaults : Defaults) : Profile → Except Exception EndpointQOS :=
  createQOS defaults.writer

/-- `CreateSubscriberQOS`. -/
def createSubscriberQOS (defaults : Defaults) : Profile → Except Exception EndpointQOS :=
  createQOS defaults.reader

/-! ## What is known of an accepted profile -/

theorem toRosHistory_injective {a b : HistoryKind} (h : toRosHistory a = toRosHistory b) :
    a = b := by
  cases a <;> cases b <;> first | rfl | cases h

theorem toRosReliability_injective {a b : ReliabilityKind}
    (h : toRosReliability a = toRosReliability b) : a = b := by
  cases a <;> cases b <;> first | rfl | cases h

/-- A policy of the profile is translated, or left to eCAL; nothing is thrown. -/
theorem chosenHistory_eq (ecalQos : ECalQOS) (policy : History) :
    ∃ kind, chosenHistory ecalQos policy = .ok kind ∧ toRosHistory kind =
      if isHistorySpecified policy then policy else toRosHistory ecalQos.historyKind := by
  rcases policy with _ | _ | _ | _
  · exact ⟨_, rfl, rfl⟩
  · exact ⟨_, rfl, rfl⟩
  · exact ⟨_, rfl, rfl⟩
  · exact ⟨_, rfl, rfl⟩

theorem chosenReliability_eq (ecalQos : ECalQOS) (policy : Reliability) :
    ∃ kind, chosenReliability ecalQos policy = .ok kind ∧ toRosReliability kind =
      if isReliabilitySpecified policy then policy else toRosReliability ecalQos.reliability := by
  rcases policy with _ | _ | _ | _
  · exact ⟨_, rfl, rfl⟩
  · exact ⟨_, rfl, rfl⟩
  · exact ⟨_, rfl, rfl⟩
  · exact ⟨_, rfl, rfl⟩

/-- **A profile is accepted exactly if its depth fits into an `int`.**  The endpoint then reports
the policies of the profile, with eCAL's where the profile leaves them open. -/
theorem createQOS_eq_ok_iff {ecalQos : ECalQOS} {profile : Profile} {qos : EndpointQOS} :
    createQOS ecalQos profile = .ok qos ↔ profile.depth ≤ maxInt ∧
      qos.rmwQos = reportedProfile profile qos.ecalQos ∧
      qos.ecalQos.historyKindDepth = profile.depth ∧
      toRosHistory qos.ecalQos.historyKind = (if isHistorySpecified profile.history
        then profile.history else toRosHistory ecalQos.historyKind) ∧
      toRosReliability qos.ecalQos.reliability = (if isReliabilitySpecified profile.reliability
        then profile.reliability else toRosReliability ecalQos.reliability) ∧
      qos.topicNamePrefix =
        if profile.avoidRosNamespaceConventions then "" else pubNamePrefix := by
  obtain ⟨kind, hkind, hhistory⟩ := chosenHistory_eq ecalQos profile.history
  obtain ⟨reliability, hrel, hreliability⟩ := chosenReliability_eq ecalQos profile.reliability
  rw [createQOS, hkind, hrel, toECalDepth, ← hhistory, ← hreliability]
  by_cases hdepth : profile.depth ≤ maxInt
  · rw [if_neg (Nat.not_lt.mpr hdepth)]
    constructor
    · rintro ⟨⟩
      exact ⟨hdepth, rfl, rfl, rfl, rfl, rfl⟩
    · obtain ⟨reported, ⟨kind', depth', reliability'⟩, namePrefix⟩ := qos
      rintro ⟨-, hreported, hdepth', hk, hr, hprefix⟩
      obtain rfl : kind' = kind := toRosHistory_injective hk
      obtain rfl : reliability' = reliability := toRosReliability_injective hr
      obtain rfl : depth' = profile.depth := hdepth'
      obtain rfl : reported = reportedProfile profile ⟨kind', profile.depth, reliability'⟩ :=
        hreported
      obtain rfl : namePrefix = _ := hprefix
      rfl
  · rw [if_pos (Nat.lt_of_not_le hdepth)]
    constructor
    · rintro ⟨⟩
    · exact fun h => absurd h.1 hdepth

/-- What eCAL's structs start with in the examples. -/
def someDefaults : Defaults :=
  ⟨⟨.keepLastHistoryQos, 1, .reliableReliabilityQos⟩,
    ⟨.keepLastHistoryQos, 1, .bestEffortReliabilityQos⟩⟩

/-- The default profile of rmw. -/
def defaultProfile : Profile :=
  ⟨.keepLast, 10, .reliable, .volatile, ⟨0, 0⟩, ⟨0, 0⟩, .systemDefault, ⟨0, 0⟩, false⟩

end Qos

end RmwEcal
