import RmwEcal.Shared.Qos
import RmwEcal.Shared.StringFunctions

/-!
# Compatible profiles

`rmw_qos_profile_check_compatible` compares one flag of the two profiles.  That is the one which
decides what is put in front of a topic name, so the verdict is that of the names, for endpoints
that can be created at all (`compatibility_eq_ok_iff`).

If the verdict is an error, its reason is copied when the buffer is no shorter than the text.  But
what is copied is one character longer, so that there is one size at which the terminator is behind
the buffer.
-/

set_option autoImplicit false

namespace RmwEcal

namespace Qos

/-! ## The check -/

/-- `rmw_qos_compatibility_type_t`, as far as it is used. -/
inductive CompatibilityType where
  | ok | error
  deriving DecidableEq, Repr

/-- `ns_conventions_error`. -/
def nsConventionsError : List Char := "avoid_ros_namespace_conventions must be same".toList

/-- What `strcpy` writes: the text and its terminator. -/
def strcpy (text : List Char) : List Char := text ++ [nul]

/-- What is different after a call; it always returns `RMW_RET_OK`. -/
structure CheckResult where
  /-- `*compatibility`. -/
  compatibility : CompatibilityType
  /-- What has been written at `reason`, from the first character on. -/
  written : List Char
  deriving DecidableEq, Repr

/-- `rmw_qos_profile_check_compatible`. -/
def rmwQosProfileCheckCompatible (publisherProfile subscriptionProfile : Profile)
    (reasonSize : ℕ) : CheckResult :=
  if publisherProfile.avoidRosNamespaceConventions ≠
      subscriptionProfile.avoidRosNamespaceConventions then
    ⟨.error, if reasonSize ≥ nsConventionsError.length then strcpy nsConventionsError else []⟩
  else ⟨.ok, []⟩

/-- The name that the constructors of `Publisher` and `Subscriber` hand to eCAL. -/
def EndpointQOS.eCALTopicName (qos : EndpointQOS) (topicName : String) : String :=
  qos.topicNamePrefix ++ topicName

/-! ## What it promises -/

/-- The verdict is that the two endpoints, if they can be created, are on one topic of eCAL. -/
def VerdictIsFaithful (defaults : Defaults) (publisherProfile subscriptionProfile : Profile)
    (result : CheckResult) : Prop :=
  ∀ (topicName : String) (pub sub : EndpointQOS),
    createPublisherQOS defaults publisherProfile = .ok pub →
    createSubscriberQOS defaults subscriptionProfile = .ok sub →
    (result.compatibility = .ok ↔ pub.eCALTopicName topicName = sub.eCALTopicName topicName)

/-- Nothing has been written behind the buffer, and a terminator if anything has been written. -/
def StaysInBuffer (reasonSize : ℕ) (result : CheckResult) : Prop :=
  result.written.length ≤ reasonSize ∧
    (result.written ≠ [] → nul ∈ result.written.take reasonSize)

section Check

variable {defaults : Defaults} {publisherProfile subscriptionProfile : Profile} {reasonSize : ℕ}

theorem topicNamePrefix_of_createQOS {ecalQos : ECalQOS} {profile : Profile} {qos : EndpointQOS}
    (h : createQOS ecalQos profile = .ok qos) : qos.topicNamePrefix =
      if profile.avoidRosNamespaceConventions then "" else pubNamePrefix :=
  (createQOS_eq_ok_iff.mp h).2.2.2.2.2

/-- The prefixes are the same if the flags are. -/
theorem eCALTopicName_eq_iff {pub sub : EndpointQOS}
    (hpub : createPublisherQOS defaults publisherProfile = .ok pub)
    (hsub : createSubscriberQOS defaults subscriptionProfile = .ok sub) (topicName : String) :
    pub.eCALTopicName topicName = sub.eCALTopicName topicName ↔
      publisherProfile.avoidRosNamespaceConventions =
        subscriptionProfile.avoidRosNamespaceConventions := by
  rw [EndpointQOS.eCALTopicName, EndpointQOS.eCALTopicName, String.append_left_inj,
    topicNamePrefix_of_createQOS hpub, topicNamePrefix_of_createQOS hsub]
  cases publisherProfile.avoidRosNamespaceConventions <;>
    cases subscriptionProfile.avoidRosNamespaceConventions <;> decide

theorem compatibility_eq_ok_iff :
    (rmwQosProfileCheckCompatible publisherProfile subscriptionProfile reasonSize).compatibility =
      .ok ↔ publisherProfile.avoidRosNamespaceConventions =
        subscriptionProfile.avoidRosNamespaceConventions := by
  rw [rmwQosProfileCheckCompatible]
  split_ifs with h
  · exact ⟨nofun, fun heq => absurd heq h⟩
  · exact ⟨fun _ => not_not.mp h, fun _ => rfl⟩

theorem check_verdictIsFaithful : VerdictIsFaithful defaults publisherProfile subscriptionProfile
    (rmwQosProfileCheckCompatible publisherProfile subscriptionProfile reasonSize) :=
  fun topicName _ _ hpub hsub =>
    compatibility_eq_ok_iff.trans (eCALTopicName_eq_iff hpub hsub topicName).symm

/-- A string with its terminator is in the buffer if that is long enough for both. -/
theorem staysInBuffer_strcpy_iff {compatibility : CompatibilityType} {text : List Char} :
    StaysInBuffer reasonSize ⟨compatibility, strcpy text⟩ ↔ text.length + 1 ≤ reasonSize := by
  have hlen : (strcpy text).length = text.length + 1 := List.length_append
  refine ⟨fun h => hlen ▸ h.1, fun h => ⟨hlen ▸ h, fun _ => ?_⟩⟩
  rw [List.take_of_length_le (hlen ▸ h)]
  exact List.mem_append_right _ (.head _)

theorem check_staysInBuffer_iff : StaysInBuffer reasonSize
      (rmwQosProfileCheckCompatible publisherProfile subscriptionProfile reasonSize) ↔
    publisherProfile.avoidRosNamespaceConventions =
      subscriptionProfile.avoidRosNamespaceConventions ∨
    reasonSize ≠ nsConventionsError.length := by
  have hnothing : ∀ compatibility, StaysInBuffer reasonSize ⟨compatibility, []⟩ :=
    fun _ => ⟨Nat.zero_le _, fun h => absurd rfl h⟩
  rw [rmwQosProfileCheckCompatible]
  split_ifs with hflags hsize
  · rw [staysInBuffer_strcpy_iff, or_iff_right hflags]
    omega
  · exact iff_of_true (hnothing _) (.inr fun heq => hsize (Nat.le_of_eq heq.symm))
  · exact iff_of_true (hnothing _) (.inl (not_not.mp hflags))

end Check

/-- **The verdict is always right, and there is one size at which the reason leaves its buffer**:
that of the text, without its terminator. -/
theorem rmwQosProfileCheckCompatible_iff (defaults : Defaults)
    (publisherProfile subscriptionProfile : Profile) (reasonSize : ℕ) :
    (VerdictIsFaithful defaults publisherProfile subscriptionProfile
        (rmwQosProfileCheckCompatible publisherProfile subscriptionProfile reasonSize) ∧
      StaysInBuffer reasonSize
        (rmwQosProfileCheckCompatible publisherProfile subscriptionProfile reasonSize)) ↔
    publisherProfile.avoidRosNamespaceConventions =
      subscriptionProfile.avoidRosNamespaceConventions ∨
    reasonSize ≠ nsConventionsError.length :=
  (and_iff_right check_verdictIsFaithful).trans check_staysInBuffer_iff

/-- A publisher by the conventions of ROS, a subscription without them, and 44 characters. -/
theorem rmwQosProfileCheckCompatible_overruns :
    ¬ (VerdictIsFaithful someDefaults defaultProfile
        { defaultProfile with avoidRosNamespaceConventions := true }
        (rmwQosProfileCheckCompatible defaultProfile
          { defaultProfile with avoidRosNamespaceConventions := true } 44) ∧
      StaysInBuffer 44 (rmwQosProfileCheckCompatible defaultProfile
        { defaultProfile with avoidRosNamespaceConventions := true } 44)) := by
  rintro ⟨-, hlen, -⟩
  revert hlen
  decide

end Qos

end RmwEcal
