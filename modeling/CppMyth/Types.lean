import CppMyth.Builtin
import CppMyth.Socket

/-! The records of `mythtypes.h` that the wire formats carry, and the mapper of
`mythtypes.cpp` between enumerated values, numbers and texts. -/
namespace CppMyth

structure Channel where
  chanId : UInt32 := 0
  chanNum : List UInt8 := []
  callSign : List UInt8 := []
  channelName : List UInt8 := []
  chanFilters : List UInt8 := []
  sourceId : UInt32 := 0
  inputId : UInt32 := 0
  deriving DecidableEq

structure Recording where
  recordId : UInt32 := 0
  priority : Int32 := 0
  status : Int8 := 0
  recType : UInt8 := 0
  dupInType : UInt8 := 0
  dupMethod : UInt8 := 0
  startTs : Int64 := 0
  endTs : Int64 := 0
  recGroup : List UInt8 := []
  storageGroup : List UInt8 := []
  playGroup : List UInt8 := []
  recordedId : UInt32 := 0
  deriving DecidableEq

/-- `D` is the type of the floating point numbers. -/
structure Program (D : Type) where
  startTime : Int64 := 0
  endTime : Int64 := 0
  title : List UInt8 := []
  subTitle : List UInt8 := []
  description : List UInt8 := []
  season : UInt16 := 0
  episode : UInt16 := 0
  category : List UInt8 := []
  catType : List UInt8 := []
  hostName : List UInt8 := []
  fileName : List UInt8 := []
  fileSize : Int64 := 0
  programFlags : UInt32 := 0
  seriesId : List UInt8 := []
  programId : List UInt8 := []
  inetref : List UInt8 := []
  lastModified : Int64 := 0
  stars : D
  airdate : List UInt8 := []
  audioProps : UInt16 := 0
  videoProps : UInt16 := 0
  subProps : UInt16 := 0
  channel : Channel := {}
  recording : Recording := {}
  deriving DecidableEq

section Mapper

variable {T : Type} [DecidableEq T]

/-- `protoref_t` -/
structure Protoref (T : Type) where
  protoVer : Nat
  tVal : T
  iVal : Int
  sVal : List UInt8

def tValFromString (map : List (Protoref T)) (proto : Nat) (sVal : List UInt8) (unk : T) : T :=
  match map.find? fun r => proto ≥ r.protoVer && sVal == r.sVal with
  | some r => r.tVal
  | none => unk

def tValFromNum (map : List (Protoref T)) (proto : Nat) (iVal : Int) (unk : T) : T :=
  match map.find? fun r => proto ≥ r.protoVer && iVal == r.iVal with
  | some r => r.tVal
  | none => unk

def tValToString (map : List (Protoref T)) (proto : Nat) (tVal : T) (unk : List UInt8) :
    List UInt8 :=
  match map.find? fun r => proto ≥ r.protoVer && tVal == r.tVal with
  | some r => r.sVal
  | none => unk

def tValToNum (map : List (Protoref T)) (proto : Nat) (tVal : T) (unk : Int) : Int :=
  match map.find? fun r => proto ≥ r.protoVer && tVal == r.tVal with
  | some r => r.iVal
  | none => unk

end Mapper

/-- `CATT_t` -/
inductive CategoryType where
  | CategoryNone | CategoryMovie | CategorySeries | CategorySports | CategoryTVShow | UNKNOWN
  deriving DecidableEq, Repr

def categoryType : List (Protoref CategoryType) :=
  [⟨79, .CategoryNone, 0, ascii ""⟩,
    ⟨79, .CategoryMovie, 1, ascii "movie"⟩,
    ⟨79, .CategorySeries, 2, ascii "series"⟩,
    ⟨79, .CategorySports, 3, ascii "sports"⟩,
    ⟨79, .CategoryTVShow, 4, ascii "tvshow"⟩]

def categoryTypeFromString (proto : Nat) (type : List UInt8) : CategoryType :=
  if type = [] then .CategoryNone else tValFromString categoryType proto type .UNKNOWN

def categoryTypeFromNum (proto : Nat) (type : Int) : CategoryType :=
  tValFromNum categoryType proto type .UNKNOWN

def categoryTypeToString (proto : Nat) (type : CategoryType) : List UInt8 :=
  tValToString categoryType proto type (ascii "")

def categoryTypeToNum (proto : Nat) (type : CategoryType) : Int :=
  tValToNum categoryType proto type 0

theorem categoryType_find? {proto : Nat} (known : 79 ≤ proto)
    (accept : Protoref CategoryType → Bool) :
    (categoryType.find? fun r => proto ≥ r.protoVer && accept r) = categoryType.find? accept := by
  have listed : ∀ r ∈ categoryType, r.protoVer = 79 := by decide
  refine List.find?_congr fun r entry => ?_
  simp [listed r entry, known]

theorem category_number {proto : Nat} (known : 79 ≤ proto) {text : List UInt8}
    (entry : text ∈ categoryType.map Protoref.sVal) :
    ∃ n : UInt8, categoryTypeToNum proto (categoryTypeFromString proto text) = n.toNat ∧
      categoryTypeToString proto (categoryTypeFromNum proto n.toNat) = text := by
  have closed : ∀ text ∈ categoryType.map Protoref.sVal, ∃ n ∈ [(0 : UInt8), 1, 2, 3, 4],
      categoryTypeToNum 79 (categoryTypeFromString 79 text) = n.toNat ∧
        categoryTypeToString 79 (categoryTypeFromNum 79 n.toNat) = text := by decide
  obtain ⟨n, -, number, back⟩ := closed text entry
  refine ⟨n, ?_, ?_⟩
  · simpa only [categoryTypeToNum, categoryTypeFromString, tValToNum, tValFromString,
      categoryType_find? known, categoryType_find? (le_refl 79)] using number
  · simpa only [categoryTypeToString, categoryTypeFromNum, tValToString, tValFromNum,
      categoryType_find? known, categoryType_find? (le_refl 79)] using back

end CppMyth
