import RmwEcal.Dynamic.Deserializer

/-!
# The two languages

`CppSerializer` and `CppDeserializer` next to `CSerializer` and `CDeserializer`, for what is said of
both languages at once.
-/

set_option autoImplicit false

namespace RmwEcal

open Codec

/-- The constructor, which can only fail in `AnalyzeType`. -/
def CppSerializer.construct (reg : Registry) (members : MessageMembers) :
    Except Fault Unit × Registry := analyzeType cppCountedSize members reg

/-- The constructor, which can only fail in `AnalyzeType`. -/
def CppDeserializer.construct (reg : Registry) (members : MessageMembers) :
    Except Fault Unit × Registry := analyzeType cppCountedSize members reg

/-- The constructor, which can only fail in `AnalyzeType`. -/
def CSerializer.construct (reg : Registry) (members : MessageMembers) :
    Except Fault Unit × Registry := analyzeType cCountedSize members reg

/-- The constructor, which can only fail in `AnalyzeType`. -/
def CDeserializer.construct (reg : Registry) (members : MessageMembers) :
    Except Fault Unit × Registry := analyzeType cCountedSize members reg

/-- A language that type supports are generated for. -/
inductive Language where
  | cpp | c
  deriving DecidableEq, Repr

namespace Language

/-- The layout of its objects. -/
def abi : Language → Abi
  | cpp => cppAbi
  | c => cAbi

/-- The sizes that its `AnalyzeType` counts. -/
def countedSize : Language → Primitive → ℕ
  | cpp => cppCountedSize
  | c => cCountedSize

/-- The constructor of its serializer. -/
def constructSerializer : Language → Registry → MessageMembers → Except Fault Unit × Registry
  | cpp => CppSerializer.construct
  | c => CSerializer.construct

/-- The constructor of its deserializer. -/
def constructDeserializer : Language → Registry → MessageMembers → Except Fault Unit × Registry
  | cpp => CppDeserializer.construct
  | c => CDeserializer.construct

/-- Its `Serialize`. -/
def serialize : Language → Platform → Registry → MessageMembers → List Cell →
    Except Fault (List UInt8)
  | cpp => CppSerializer.serialize
  | c => CSerializer.serialize

/-- Its `Deserialize`. -/
def deserialize : Language → Platform → Registry → MessageMembers → List Cell → List UInt8 →
    Except Fault (List Cell × List UInt8)
  | cpp => CppDeserializer.deserialize
  | c => CDeserializer.deserialize

/-- The templates of its deserializer. -/
def deserializerOps : Language → Platform → DeserializerOps
  | cpp => CppDeserializer.ops
  | c => CDeserializer.ops

theorem constructSerializer_eq (l : Language) (reg : Registry) (T : MessageMembers) :
    l.constructSerializer reg T = analyzeType l.countedSize T reg := by cases l <;> rfl

theorem constructDeserializer_eq (l : Language) (reg : Registry) (T : MessageMembers) :
    l.constructDeserializer reg T = analyzeType l.countedSize T reg := by cases l <;> rfl

end Language

end RmwEcal
