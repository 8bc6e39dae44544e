import RmwEcal.Shared.StringFunctions

/-!
# Type names

The type that a topic is announced with is the name of its message, and the C and the C++ type
support spell the namespace of that differently: `a::b::c` and `a__b__c`.  Both replace both
separators by slashes, one after the other.

What the first replacement puts in is a slash, which is in neither separator.  So it makes no
separator where there was none, the second one does not undo the first, and there is only to see
that joining the components does not make one either: for `::` no component has a colon, for `__`
none ends with an underscore (`cut_join`).
-/

set_option autoImplicit false

namespace RmwEcal

open Codec

/-- The names in the introspection data of a message. -/
structure MessageNames where
  messageNamespace : List Char
  /-- `message_name_`, if it is not null. -/
  messageName : Option (List Char)
  deriving DecidableEq, Repr

/-- `"::"`. -/
def cppSeparator : List Char := [':', ':']

/-- `"__"`. -/
def cSeparator : List Char := ['_', '_']

/-- The body of both `GetMessageNamespace`. -/
def normaliseNamespace (nameSpace : List Char) : Option (List Char) := do
  let nameSpace ← replaceString nameSpace cppSeparator ['/']
  replaceString nameSpace cSeparator ['/']

namespace CppMessageTypeSupport

/-- `CppMessageTypeSupport::GetMessageNamespace`. -/
def getMessageNamespace (members : MessageNames) : Option (List Char) :=
  normaliseNamespace members.messageNamespace

/-- `CppMessageTypeSupport::GetMessageSimpleName`. -/
def getMessageSimpleName (members : MessageNames) : List Char := members.messageName.getD []

/-- `CppMessageTypeSupport::GetMessageName`. -/
def getMessageName (members : MessageNames) : Option (List Char) := do
  let nameSpace ← getMessageNamespace members
  some (nameSpace ++ ['/'] ++ getMessageSimpleName members)

end CppMessageTypeSupport

namespace CMessageTypeSupport

/-- `CMessageTypeSupport::GetMessageNamespace`. -/
def getMessageNamespace (members : MessageNames) : Option (List Char) :=
  normaliseNamespace members.messageNamespace

/-- `CMessageTypeSupport::GetMessageSimpleName`. -/
def getMessageSimpleName (members : MessageNames) : List Char := members.messageName.getD []

/-- `CMessageTypeSupport::GetMessageName`. -/
def getMessageName (members : MessageNames) : Option (List Char) := do
  let nameSpace ← getMessageNamespace members
  some (nameSpace ++ ['/'] ++ getMessageSimpleName members)

end CMessageTypeSupport

/-- A component of a namespace. -/
structure IsComponent (component : List Char) : Prop where
  /-- It is not empty. -/
  ne_nil : component ≠ []
  /-- It has no colon. -/
  no_colon : ':' ∉ component
  /-- It has no two underscores in a row. -/
  no_separator : ¬ cSeparator <:+: component
  /-- It does not begin with an underscore. -/
  begin_ne : component.head? ≠ some '_'
  /-- It does not end with one. -/
  end_ne : component.getLast? ≠ some '_'

/-! ## One replacement -/

/-- Replacing a doubled symbol by a slash leaves none of them, and makes no other. -/
theorem replaceString_doubled {a : Char} (ha : a ≠ '/') (subject : List Char) :
    ∃ result, replaceString subject [a, a] ['/'] = some result ∧ ¬ [a, a] <:+: result ∧
      ∀ b, b ≠ '/' → ¬ [b, b] <:+: subject → ¬ [b, b] <:+: result := by
  have hsep : [a, a] ≠ [] := List.cons_ne_nil _ _
  have hslash : ['/'] ≠ [] := List.cons_ne_nil _ _
  obtain ⟨pieces, hcut, -⟩ := exists_cut hsep subject
  refine ⟨_, replaceString_of_cut hcut hsep _, ?_, fun b hb hsubject => ?_⟩
  · exact not_pair_infix_intercalate hslash (by simpa using ha) (hcut.not_inside hsep)
  · refine not_pair_infix_intercalate hslash (by simpa using hb) fun piece hmem hinside => ?_
    exact hsubject (hinside.trans (hcut.inside piece hmem))

/-- Neither separator is left in a namespace. -/
theorem normaliseNamespace_separators (nameSpace : List Char) :
    ∃ result, normaliseNamespace nameSpace = some result ∧
      ¬ cppSeparator <:+: result ∧ ¬ cSeparator <:+: result := by
  obtain ⟨first, hfirst, hnone, -⟩ := replaceString_doubled (a := ':') (by decide) nameSpace
  obtain ⟨second, hsecond, hnone', hkeep⟩ := replaceString_doubled (a := '_') (by decide) first
  refine ⟨second, ?_, hkeep ':' (by decide) hnone, hnone'⟩
  rw [normaliseNamespace, cppSeparator, hfirst]
  exact hsecond

/-! ## Components -/

section Components

variable {components : List (List Char)}

/-- Components joined with a doubled symbol come apart again, if none has it twice in a row or ends
with it. -/
theorem cut_join {a : Char} (hne : components ≠ [])
    (hin : ∀ component ∈ components, ¬ [a, a] <:+: component)
    (hend : ∀ component ∈ components, component.getLast? ≠ some a) :
    Cut [a, a] (List.intercalate [a, a] components) components := by
  refine cut_intercalate hne fun component hmem => ?_
  rw [show [a, a].dropLast = [a] from rfl, pair_infix_append_iff]
  rintro (h | h | ⟨h, -⟩)
  · exact hin component hmem h
  · exact absurd h.length_le (by simp)
  · obtain ⟨front, rfl⟩ := h
    exact hend _ hmem List.getLast?_concat

/-- Replacing the doubled symbol that components have been joined with. -/
theorem replaceString_join {a : Char}
    (hin : ∀ component ∈ components, ¬ [a, a] <:+: component)
    (hend : ∀ component ∈ components, component.getLast? ≠ some a) :
    replaceString (List.intercalate [a, a] components) [a, a] ['/'] =
      some (List.intercalate ['/'] components) := by
  by_cases hne : components = []
  · subst hne
    exact replaceString_of_cut (.last (by simp)) (List.cons_ne_nil _ _) _
  · exact replaceString_of_cut (cut_join hne hin hend) (List.cons_ne_nil _ _) _

/-- Replacing one that they have not been joined with. -/
theorem replaceString_absent {a : Char} {sep : List Char} (hsep : sep ≠ []) (ha : a ∉ sep)
    (hin : ∀ component ∈ components, ¬ [a, a] <:+: component) :
    replaceString (sep.intercalate components) [a, a] ['/'] =
      some (sep.intercalate components) := by
  have hcut : Cut [a, a] (sep.intercalate components) [sep.intercalate components] :=
    .last (not_pair_infix_intercalate hsep ha hin)
  rw [replaceString_of_cut hcut (List.cons_ne_nil _ _), List.intercalate_singleton]

theorem IsComponent.no_cppSeparator {component : List Char} (h : IsComponent component) :
    ¬ cppSeparator <:+: component :=
  fun hinside => h.no_colon (hinside.subset (.head _))

theorem IsComponent.end_ne_colon {component : List Char} (h : IsComponent component) :
    component.getLast? ≠ some ':' :=
  fun heq => h.no_colon (List.mem_of_getLast? heq)

theorem normaliseNamespace_cpp (h : ∀ component ∈ components, IsComponent component) :
    normaliseNamespace (cppSeparator.intercalate components) =
      some (List.intercalate ['/'] components) := by
  have hfirst := replaceString_join (fun c hc => (h c hc).no_cppSeparator)
    fun c hc => (h c hc).end_ne_colon
  rw [normaliseNamespace, cppSeparator, hfirst]
  exact replaceString_absent (List.cons_ne_nil _ _) (by decide) fun c hc => (h c hc).no_separator

theorem normaliseNamespace_c (h : ∀ component ∈ components, IsComponent component) :
    normaliseNamespace (cSeparator.intercalate components) =
      some (List.intercalate ['/'] components) := by
  have hfirst : replaceString (cSeparator.intercalate components) cppSeparator ['/'] =
      some (cSeparator.intercalate components) :=
    replaceString_absent (List.cons_ne_nil _ _) (by decide) fun c hc => (h c hc).no_cppSeparator
  rw [normaliseNamespace, hfirst]
  exact replaceString_join (fun c hc => (h c hc).no_separator) fun c hc => (h c hc).end_ne

end Components

/-- **The C and the C++ type support announce the same type.**  The components of the namespace and
the name of the message end up with slashes between them either way; and whatever the namespace is,
neither separator is left in it. -/
theorem getMessageName_agree {components : List (List Char)}
    (h : ∀ component ∈ components, IsComponent component) (messageName : Option (List Char)) :
    CppMessageTypeSupport.getMessageName ⟨cppSeparator.intercalate components, messageName⟩ =
        some (List.intercalate ['/'] components ++ ['/'] ++ messageName.getD []) ∧
      CMessageTypeSupport.getMessageName ⟨cSeparator.intercalate components, messageName⟩ =
        some (List.intercalate ['/'] components ++ ['/'] ++ messageName.getD []) ∧
      ∀ members : MessageNames,
        (∃ nameSpace, CppMessageTypeSupport.getMessageNamespace members = some nameSpace ∧
          ¬ cppSeparator <:+: nameSpace ∧ ¬ cSeparator <:+: nameSpace) ∧
        ∃ nameSpace, CMessageTypeSupport.getMessageNamespace members = some nameSpace ∧
          ¬ cppSeparator <:+: nameSpace ∧ ¬ cSeparator <:+: nameSpace := by
  refine ⟨?_, ?_, fun members => ⟨?_, ?_⟩⟩
  · rw [CppMessageTypeSupport.getMessageName, CppMessageTypeSupport.getMessageNamespace,
      normaliseNamespace_cpp h]
    rfl
  · rw [CMessageTypeSupport.getMessageName, CMessageTypeSupport.getMessageNamespace,
      normaliseNamespace_c h]
    rfl
  · exact normaliseNamespace_separators members.messageNamespace
  · exact normaliseNamespace_separators members.messageNamespace

/-- `a_b::c` and `a_b__c`. -/
theorem getMessageName_agree_pair :
    CppMessageTypeSupport.getMessageName
        ⟨cppSeparator.intercalate [['a', '_', 'b'], ['c']], some ['D']⟩ =
        some (List.intercalate ['/'] [['a', '_', 'b'], ['c']] ++ ['/'] ++ ['D']) ∧
      CMessageTypeSupport.getMessageName
        ⟨cSeparator.intercalate [['a', '_', 'b'], ['c']], some ['D']⟩ =
        some (List.intercalate ['/'] [['a', '_', 'b'], ['c']] ++ ['/'] ++ ['D']) ∧
      ∀ members : MessageNames,
        (∃ nameSpace, CppMessageTypeSupport.getMessageNamespace members = some nameSpace ∧
          ¬ cppSeparator <:+: nameSpace ∧ ¬ cSeparator <:+: nameSpace) ∧
        ∃ nameSpace, CMessageTypeSupport.getMessageNamespace members = some nameSpace ∧
          ¬ cppSeparator <:+: nameSpace ∧ ¬ cSeparator <:+: nameSpace :=
  getMessageName_agree
    (List.forall_mem_cons.mpr
      ⟨⟨by decide, by decide, by decide, by decide, by decide⟩,
        List.forall_mem_singleton.mpr
          ⟨by decide, by decide, by decide, by decide, by decide⟩⟩)
    (some ['D'])

example : CMessageTypeSupport.getMessageName ⟨['a', '_', '_', '_', 'b'], some ['D']⟩ =
    some ['a', '/', '_', 'b', '/', 'D'] := rfl

end RmwEcal
