import CppMyth.Types
import CppMyth.Proto.Fields

/-! The program records of `mythprotobase.cpp`, from version 75 to 91 of the protocol. Each
layout is written twice in the source, once as the fields that are received and once as the
fields that are sent. -/
namespace CppMyth
open Library

/-- The conversions of floating point numbers. What is written has digits, signs, letters and
a point only. -/
structure DoubleCodec (D : Type) where
  zero : D
  toString : D → List UInt8
  ofString : List UInt8 → Option D
  plain : ∀ d, 0 ∉ toString d ∧ 91 ∉ toString d

/-- The fields of the layouts. Those of the last two lines are no members of a program. -/
inductive ProgramField where
  | title | subTitle | description | season | episode | category | chanId | chanNum | callSign
  | channelName | fileName | fileSize | startTime | endTime | hostName | sourceId | inputId
  | priority | status | recordId | recType | dupInType | dupMethod | startTs | endTs
  | programFlags | recGroup | chanFilters | seriesId | programId | inetref | lastModified
  | stars | airdate | playGroup | storageGroup | audioProps | videoProps | subProps | catType
  | recordedId
  | findid | cardid | recpriority2 | parentid | totalEpisodes | year | partNumber | partTotal
  | syndicatedEpisode | inputname | bookmarkupdate
  deriving DecidableEq, Repr

namespace ProgramField

variable {D : Type}

def write (codec : DoubleCodec D) (version : Nat) (p : Program D) : ProgramField → List UInt8
  | title => p.title
  | subTitle => p.subTitle
  | description => p.description
  | season => uint16ToString p.season
  | episode => uint16ToString p.episode
  | category => p.category
  | chanId => uint32ToString p.channel.chanId
  | chanNum => p.channel.chanNum
  | callSign => p.channel.callSign
  | channelName => p.channel.channelName
  | fileName => p.fileName
  | fileSize => int64ToString p.fileSize
  | startTime => int64ToString p.startTime
  | endTime => int64ToString p.endTime
  | hostName => p.hostName
  | sourceId => uint32ToString p.channel.sourceId
  | inputId => uint32ToString p.channel.inputId
  | priority => int32ToString p.recording.priority
  | status => int8ToString p.recording.status
  | recordId => uint32ToString p.recording.recordId
  | recType => uint8ToString p.recording.recType
  | dupInType => uint8ToString p.recording.dupInType
  | dupMethod => uint8ToString p.recording.dupMethod
  | startTs => int64ToString p.recording.startTs
  | endTs => int64ToString p.recording.endTs
  | programFlags => uint32ToString p.programFlags
  | recGroup => p.recording.recGroup
  | chanFilters => p.channel.chanFilters
  | seriesId => p.seriesId
  | programId => p.programId
  | inetref => p.inetref
  | lastModified => int64ToString p.lastModified
  | stars => codec.toString p.stars
  | airdate => p.airdate
  | playGroup => p.recording.playGroup
  | storageGroup => p.recording.storageGroup
  | audioProps => uint16ToString p.audioProps
  | videoProps => uint16ToString p.videoProps
  | subProps => uint16ToString p.subProps
  | catType =>
    uint8ToString
      (UInt8.ofInt (categoryTypeToNum version (categoryTypeFromString version p.catType)))
  | recordedId => uint32ToString p.recording.recordedId
  | findid | cardid | recpriority2 | parentid | totalEpisodes | year | partNumber | partTotal =>
    ascii "0"
  | syndicatedEpisode | inputname | bookmarkupdate => []

/-- The member set from a field that was received; `none` where the text is not accepted. -/
def read (codec : DoubleCodec D) (version : Nat) (p : Program D) (text : List UInt8) :
    ProgramField → Option (Program D)
  | title => some { p with title := text }
  | subTitle => some { p with subTitle := text }
  | description => some { p with description := text }
  | season => (stringToUint16 text).toOption.map fun n => { p with season := n }
  | episode => (stringToUint16 text).toOption.map fun n => { p with episode := n }
  | category => some { p with category := text }
  | chanId => (stringToUint32 text).toOption.map fun n => { p with channel.chanId := n }
  | chanNum => some { p with channel.chanNum := text }
  | callSign => some { p with channel.callSign := text }
  | channelName => some { p with channel.channelName := text }
  | fileName => some { p with fileName := text }
  | fileSize => (stringToInt64 text).toOption.map fun n => { p with fileSize := n }
  | startTime => (stringToInt64 text).toOption.map fun n => { p with startTime := n }
  | endTime => (stringToInt64 text).toOption.map fun n => { p with endTime := n }
  | hostName => some { p with hostName := text }
  | sourceId => (stringToUint32 text).toOption.map fun n => { p with channel.sourceId := n }
  | inputId => (stringToUint32 text).toOption.map fun n => { p with channel.inputId := n }
  | priority => (stringToInt32 text).toOption.map fun n => { p with recording.priority := n }
  | status => (stringToInt8 text).toOption.map fun n => { p with recording.status := n }
  | recordId => (stringToUint32 text).toOption.map fun n => { p with recording.recordId := n }
  | recType => (stringToUint8 text).toOption.map fun n => { p with recording.recType := n }
  | dupInType => (stringToUint8 text).toOption.map fun n => { p with recording.dupInType := n }
  | dupMethod => (stringToUint8 text).toOption.map fun n => { p with recording.dupMethod := n }
  | startTs => (stringToInt64 text).toOption.map fun n => { p with recording.startTs := n }
  | endTs => (stringToInt64 text).toOption.map fun n => { p with recording.endTs := n }
  | programFlags => (stringToUint32 text).toOption.map fun n => { p with programFlags := n }
  | recGroup => some { p with recording.recGroup := text }
  | chanFilters => some { p with channel.chanFilters := text }
  | seriesId => some { p with seriesId := text }
  | programId => some { p with programId := text }
  | inetref => some { p with inetref := text }
  | lastModified => (stringToInt64 text).toOption.map fun n => { p with lastModified := n }
  | stars => (codec.ofString text).map fun d => { p with stars := d }
  | airdate => some { p with airdate := text }
  | playGroup => some { p with recording.playGroup := text }
  | storageGroup => some { p with recording.storageGroup := text }
  | audioProps => (stringToUint16 text).toOption.map fun n => { p with audioProps := n }
  | videoProps => (stringToUint16 text).toOption.map fun n => { p with videoProps := n }
  | subProps => (stringToUint16 text).toOption.map fun n => { p with subProps := n }
  | catType => (stringToInt64 text).toOption.map fun n => { p with
      catType := categoryTypeToString version (categoryTypeFromNum version n.toInt32.toInt) }
  | recordedId => (stringToUint32 text).toOption.map fun n => { p with recording.recordedId := n }
  | findid | cardid | recpriority2 | parentid | totalEpisodes | year | partNumber | partTotal
  | syndicatedEpisode | inputname | bookmarkupdate => some p

def Agrees (p q : Program D) : ProgramField → Prop
  | title => q.title = p.title
  | subTitle => q.subTitle = p.subTitle
  | description => q.description = p.description
  | season => q.season = p.season
  | episode => q.episode = p.episode
  | category => q.category = p.category
  | chanId => q.channel.chanId = p.channel.chanId
  | chanNum => q.channel.chanNum = p.channel.chanNum
  | callSign => q.channel.callSign = p.channel.callSign
  | channelName => q.channel.channelName = p.channel.channelName
  | fileName => q.fileName = p.fileName
  | fileSize => q.fileSize = p.fileSize
  | startTime => q.startTime = p.startTime
  | endTime => q.endTime = p.endTime
  | hostName => q.hostName = p.hostName
  | sourceId => q.channel.sourceId = p.channel.sourceId
  | inputId => q.channel.inputId = p.channel.inputId
  | priority => q.recording.priority = p.recording.priority
  | status => q.recording.status = p.recording.status
  | recordId => q.recording.recordId = p.recording.recordId
  | recType => q.recording.recType = p.recording.recType
  | dupInType => q.recording.dupInType = p.recording.dupInType
  | dupMethod => q.recording.dupMethod = p.recording.dupMethod
  | startTs => q.recording.startTs = p.recording.startTs
  | endTs => q.recording.endTs = p.recording.endTs
  | programFlags => q.programFlags = p.programFlags
  | recGroup => q.recording.recGroup = p.recording.recGroup
  | chanFilters => q.channel.chanFilters = p.channel.chanFilters
  | seriesId => q.seriesId = p.seriesId
  | programId => q.programId = p.programId
  | inetref => q.inetref = p.inetref
  | lastModified => q.lastModified = p.lastModified
  | stars => q.stars = p.stars
  | airdate => q.airdate = p.airdate
  | playGroup => q.recording.playGroup = p.recording.playGroup
  | storageGroup => q.recording.storageGroup = p.recording.storageGroup
  | audioProps => q.audioProps = p.audioProps
  | videoProps => q.videoProps = p.videoProps
  | subProps => q.subProps = p.subProps
  | catType => q.catType = p.catType
  | recordedId => q.recording.recordedId = p.recording.recordedId
  | findid | cardid | recpriority2 | parentid | totalEpisodes | year | partNumber | partTotal
  | syndicatedEpisode | inputname | bookmarkupdate => True

def copy (p q : Program D) : ProgramField → Program D
  | title => { q with title := p.title }
  | subTitle => { q with subTitle := p.subTitle }
  | description => { q with description := p.description }
  | season => { q with season := p.season }
  | episode => { q with episode := p.episode }
  | category => { q with category := p.category }
  | chanId => { q with channel.chanId := p.channel.chanId }
  | chanNum => { q with channel.chanNum := p.channel.chanNum }
  | callSign => { q with channel.callSign := p.channel.callSign }
  | channelName => { q with channel.channelName := p.channel.channelName }
  | fileName => { q with fileName := p.fileName }
  | fileSize => { q with fileSize := p.fileSize }
  | startTime => { q with startTime := p.startTime }
  | endTime => { q with endTime := p.endTime }
  | hostName => { q with hostName := p.hostName }
  | sourceId => { q with channel.sourceId := p.channel.sourceId }
  | inputId => { q with channel.inputId := p.channel.inputId }
  | priority => { q with recording.priority := p.recording.priority }
  | status => { q with recording.status := p.recording.status }
  | recordId => { q with recording.recordId := p.recording.recordId }
  | recType => { q with recording.recType := p.recording.recType }
  | dupInType => { q with recording.dupInType := p.recording.dupInType }
  | dupMethod => { q with recording.dupMethod := p.recording.dupMethod }
  | startTs => { q with recording.startTs := p.recording.startTs }
  | endTs => { q with recording.endTs := p.recording.endTs }
  | programFlags => { q with programFlags := p.programFlags }
  | recGroup => { q with recording.recGroup := p.recording.recGroup }
  | chanFilters => { q with channel.chanFilters := p.channel.chanFilters }
  | seriesId => { q with seriesId := p.seriesId }
  | programId => { q with programId := p.programId }
  | inetref => { q with inetref := p.inetref }
  | lastModified => { q with lastModified := p.lastModified }
  | stars => { q with stars := p.stars }
  | airdate => { q with airdate := p.airdate }
  | playGroup => { q with recording.playGroup := p.recording.playGroup }
  | storageGroup => { q with recording.storageGroup := p.recording.storageGroup }
  | audioProps => { q with audioProps := p.audioProps }
  | videoProps => { q with videoProps := p.videoProps }
  | subProps => { q with subProps := p.subProps }
  | catType => { q with catType := p.catType }
  | recordedId => { q with recording.recordedId := p.recording.recordedId }
  | findid | cardid | recpriority2 | parentid | totalEpisodes | year | partNumber | partTotal
  | syndicatedEpisode | inputname | bookmarkupdate => q

end ProgramField

def Program.texts {D : Type} (p : Program D) : List (List UInt8) :=
  [p.title, p.subTitle, p.description, p.category, p.catType, p.hostName, p.fileName, p.seriesId,
    p.programId, p.inetref, p.airdate, p.channel.chanNum, p.channel.callSign,
    p.channel.channelName, p.channel.chanFilters, p.recording.recGroup,
    p.recording.storageGroup, p.recording.playGroup]

def Program.times {D : Type} (p : Program D) : List Int64 :=
  [p.fileSize, p.startTime, p.endTime, p.recording.startTs, p.recording.endTs, p.lastModified]

/-- The values that their texts give back. The least number of a signed type is not one: the
parsers bound the absolute value. -/
structure Encodable {D : Type} (codec : DoubleCodec D) (p : Program D) : Prop where
  texts : ∀ text ∈ p.texts, ∀ c ∈ text, c ≠ 0 ∧ c ≠ 91 ∧ c ≠ 93 ∧ c ≠ 58
  category : p.catType ∈ categoryType.map Protoref.sVal
  times : ∀ n ∈ p.times, n ≠ Int64.minValue
  priority : p.recording.priority ≠ Int32.minValue
  stars : codec.ofString (codec.toString p.stars) = some p.stars

namespace ProgramField

variable {D : Type} {codec : DoubleCodec D} {p : Program D}

theorem read_write (encodable : Encodable codec p) {version : Nat} (q : Program D)
    (f : ProgramField) (table : f = catType → 79 ≤ version) :
    f.read codec version q (f.write codec version p) = some (f.copy p q) := by
  cases f
  case season | episode | audioProps | videoProps | subProps =>
    simp [read, write, copy, stringToUint16_uint16ToString, Except.toOption]
  case chanId | sourceId | inputId | recordId | programFlags | recordedId =>
    simp [read, write, copy, stringToUint32_uint32ToString, Except.toOption]
  case recType | dupInType | dupMethod =>
    simp [read, write, copy, stringToUint8_uint8ToString, Except.toOption]
  case fileSize | startTime | endTime | startTs | endTs | lastModified =>
    rw [write, read, stringToInt64_int64ToString (encodable.times _ (by simp [Program.times]))]
    rfl
  case priority =>
    simp [read, write, copy, stringToInt32_int32ToString encodable.priority, Except.toOption]
  case status => simp [read, write, copy, stringToInt8_int8ToString, Except.toOption]
  case stars => simp [read, write, copy, encodable.stars]
  case catType =>
    obtain ⟨n, number, back⟩ := category_number (table rfl) encodable.category
    have small := n.toNat_lt
    have low : ((n.toNat : Int) % 2 ^ 8).toNat = n.toNat := by omega
    have byte : UInt8.ofInt n.toNat = n := by rw [UInt8.ofInt, low, UInt8.ofNat_toNat]
    have value : (Int64.ofInt n.toNat).toInt32.toInt = n.toNat := by
      rw [Int64.toInt_toInt32, Int64.toInt_ofInt_of_le (by omega) (by omega),
        Int.bmod_eq_of_le (by omega) (by omega)]
    rw [write, number, byte, read, stringToInt64_uint8ToString]
    simp only [Except.toOption, Option.map_some, value, back, copy]
  all_goals rfl

theorem write_clean (encodable : Encodable codec p) (version : Nat) (f : ProgramField) :
    0 ∉ f.write codec version p ∧ 91 ∉ f.write codec version p := by
  have text : ∀ text ∈ p.texts, 0 ∉ text ∧ 91 ∉ text := fun text ht =>
    ⟨fun h => (encodable.texts text ht 0 h).1 rfl, fun h => (encodable.texts text ht 91 h).2.1 rfl⟩
  have digits (n : Nat) : 0 ∉ decimal n ∧ 91 ∉ decimal n :=
    ⟨not_mem_of_isdigit (decimal_isdigit n) (by decide),
      not_mem_of_isdigit (decimal_isdigit n) (by decide)⟩
  have signed (i : Int) : 0 ∉ decimalInt i ∧ 91 ∉ decimalInt i :=
    ⟨not_mem_decimalInt i (by decide) (by decide), not_mem_decimalInt i (by decide) (by decide)⟩
  cases f
  case stars => exact codec.plain p.stars
  case season | episode | audioProps | videoProps | subProps =>
    rw [write, uint16ToString_decimal]
    exact digits _
  case chanId | sourceId | inputId | recordId | programFlags | recordedId =>
    rw [write, uint32ToString_decimal]
    exact digits _
  case recType | dupInType | dupMethod | catType =>
    rw [write, uint8ToString_decimal]
    exact digits _
  case fileSize | startTime | endTime | startTs | endTs | lastModified | priority | status =>
    exact signed _
  case findid | cardid | recpriority2 | parentid | totalEpisodes | year | partNumber | partTotal
    | syndicatedEpisode | inputname | bookmarkupdate => simp [write, ascii]
  all_goals exact text _ (by simp [write, Program.texts])

end ProgramField

namespace ProtoBase

section Layouts
open ProgramField

def received75 : List ProgramField :=
  [title, subTitle, description, season, episode, category, chanId, chanNum, callSign,
    channelName, fileName, fileSize, startTime, endTime, findid, hostName, sourceId, cardid,
    inputId, priority, status, recordId, recType, dupInType, dupMethod, startTs, endTs,
    programFlags, recGroup, chanFilters, seriesId, programId, inetref, lastModified, stars,
    airdate, playGroup, recpriority2, parentid, storageGroup, audioProps, videoProps]

def received76 : List ProgramField :=
  [title, subTitle, description, season, episode, syndicatedEpisode, category, chanId, chanNum,
    callSign, channelName, fileName, fileSize, startTime, endTime, findid, hostName, sourceId,
    cardid, inputId, priority, status, recordId, recType, dupInType, dupMethod, startTs, endTs,
    programFlags, recGroup, chanFilters, seriesId, programId, inetref, lastModified, stars,
    airdate, playGroup, recpriority2, parentid, storageGroup, audioProps, videoProps, subProps,
    year, partNumber, partTotal]

def received79 : List ProgramField :=
  [title, subTitle, description, season, episode, totalEpisodes, syndicatedEpisode, category,
    chanId, chanNum, callSign, channelName, fileName, fileSize, startTime, endTime, findid,
    hostName, sourceId, cardid, inputId, priority, status, recordId, recType, dupInType,
    dupMethod, startTs, endTs, programFlags, recGroup, chanFilters, seriesId, programId, inetref,
    lastModified, stars, airdate, playGroup, recpriority2, parentid, storageGroup, audioProps,
    videoProps, subProps, year, partNumber, partTotal, catType]

def received82 : List ProgramField :=
  [title, subTitle, description, season, episode, totalEpisodes, syndicatedEpisode, category,
    chanId, chanNum, callSign, channelName, fileName, fileSize, startTime, endTime, findid,
    hostName, sourceId, cardid, inputId, priority, status, recordId, recType, dupInType,
    dupMethod, startTs, endTs, programFlags, recGroup, chanFilters, seriesId, programId, inetref,
    lastModified, stars, airdate, playGroup, recpriority2, parentid, storageGroup, audioProps,
    videoProps, subProps, year, partNumber, partTotal, catType, recordedId]

def received86 : List ProgramField :=
  [title, subTitle, description, season, episode, totalEpisodes, syndicatedEpisode, category,
    chanId, chanNum, callSign, channelName, fileName, fileSize, startTime, endTime, findid,
    hostName, sourceId, cardid, inputId, priority, status, recordId, recType, dupInType,
    dupMethod, startTs, endTs, programFlags, recGroup, chanFilters, seriesId, programId, inetref,
    lastModified, stars, airdate, playGroup, recpriority2, parentid, storageGroup, audioProps,
    videoProps, subProps, year, partNumber, partTotal, catType, recordedId, inputname,
    bookmarkupdate]

def sent75 : List ProgramField :=
  [title, subTitle, description, season, episode, category, chanId, chanNum, callSign,
    channelName, fileName, fileSize, startTime, endTime, findid, hostName, sourceId, cardid,
    inputId, priority, status, recordId, recType, dupInType, dupMethod, startTs, endTs,
    programFlags, recGroup, chanFilters, seriesId, programId, inetref, lastModified, stars,
    airdate, playGroup, recpriority2, parentid, storageGroup, audioProps, videoProps, subProps,
    year]

def sent76 : List ProgramField :=
  [title, subTitle, description, season, episode, syndicatedEpisode, category, chanId, chanNum,
    callSign, channelName, fileName, fileSize, startTime, endTime, findid, hostName, sourceId,
    cardid, inputId, priority, status, recordId, recType, dupInType, dupMethod, startTs, endTs,
    programFlags, recGroup, chanFilters, seriesId, programId, inetref, lastModified, stars,
    airdate, playGroup, recpriority2, parentid, storageGroup, audioProps, videoProps, subProps,
    year, partNumber, partTotal]

def sent79 : List ProgramField :=
  [title, subTitle, description, season, episode, totalEpisodes, syndicatedEpisode, category,
    chanId, chanNum, callSign, channelName, fileName, fileSize, startTime, endTime, findid,
    hostName, sourceId, cardid, inputId, priority, status, recordId, recType, dupInType,
    dupMethod, startTs, endTs, programFlags, recGroup, chanFilters, seriesId, programId, inetref,
    lastModified, stars, airdate, playGroup, recpriority2, parentid, storageGroup, audioProps,
    videoProps, subProps, year, partNumber, partTotal, catType]

def sent82 : List ProgramField :=
  [title, subTitle, description, season, episode, totalEpisodes, syndicatedEpisode, category,
    chanId, chanNum, callSign, channelName, fileName, fileSize, startTime, endTime, findid,
    hostName, sourceId, cardid, inputId, priority, status, recordId, recType, dupInType,
    dupMethod, startTs, endTs, programFlags, recGroup, chanFilters, seriesId, programId, inetref,
    lastModified, stars, airdate, playGroup, recpriority2, parentid, storageGroup, audioProps,
    videoProps, subProps, year, partNumber, partTotal, catType, recordedId]

def sent86 : List ProgramField :=
  [title, subTitle, description, season, episode, totalEpisodes, syndicatedEpisode, category,
    chanId, chanNum, callSign, channelName, fileName, fileSize, startTime, endTime, findid,
    hostName, sourceId, cardid, inputId, priority, status, recordId, recType, dupInType,
    dupMethod, startTs, endTs, programFlags, recGroup, chanFilters, seriesId, programId, inetref,
    lastModified, stars, airdate, playGroup, recpriority2, parentid, storageGroup, audioProps,
    videoProps, subProps, year, partNumber, partTotal, catType, recordedId, inputname,
    bookmarkupdate]

end Layouts

variable {D : Type}

def receivedLayout (protoVersion : Nat) : List ProgramField :=
  if protoVersion ≥ 86 then received86
  else if protoVersion ≥ 82 then received82
  else if protoVersion ≥ 79 then received79
  else if protoVersion ≥ 76 then received76
  else received75

def sentLayout (protoVersion : Nat) : List ProgramField :=
  if protoVersion ≥ 86 then sent86
  else if protoVersion ≥ 82 then sent82
  else if protoVersion ≥ 79 then sent79
  else if protoVersion ≥ 76 then sent76
  else sent75

/-- What RcvProgramInfo75 and its siblings do, field after field. -/
def receiveFields (codec : DoubleCodec D) : List ProgramField → Program D → ProtoBase →
    Option (Program D) × ProtoBase
  | [], program, t => (some program, t)
  | f :: rest, program, t =>
    match t.readField.1 with
    | none => (none, t.readField.2)
    | some field =>
      match f.read codec t.protoVersion program field with
      | none => (none, t.readField.2)
      | some program => receiveFields codec rest program t.readField.2

def rcvProgramInfo (codec : DoubleCodec D) (t : ProtoBase) : Option (Program D) × ProtoBase :=
  receiveFields codec (receivedLayout t.protoVersion) { stars := codec.zero } t

/-- The fields that MakeProgramInfo75 and its siblings append. -/
def programTexts (codec : DoubleCodec D) (protoVersion : Nat) (p : Program D) :
    List (List UInt8) :=
  (sentLayout protoVersion).map fun f => f.write codec protoVersion p

def makeProgramInfo (codec : DoubleCodec D) (protoVersion : Nat) (p : Program D) : List UInt8 :=
  joinFields separator (programTexts codec protoVersion p)

def copies (p q : Program D) (layout : List ProgramField) : Program D :=
  layout.foldl (fun q f => f.copy p q) q

def makeProgramInfos (codec : DoubleCodec D) (protoVersion : Nat) (ps : List (Program D)) :
    List UInt8 :=
  joinFields separator (ps.map (makeProgramInfo codec protoVersion))

def rcvProgramInfos (codec : DoubleCodec D) : Nat → ProtoBase →
    List (Option (Program D)) × ProtoBase
  | 0, t => ([], t)
  | k + 1, t =>
    let rest := rcvProgramInfos codec k (rcvProgramInfo codec t).2
    ((rcvProgramInfo codec t).1 :: rest.1, rest.2)

variable {codec : DoubleCodec D} {p : Program D} {t : ProtoBase}

/-- Where the message has the fields of the layout first, their members are copied and what
follows them is left. -/
theorem receiveFields_texts (encodable : Encodable codec p) (layout : List ProgramField)
    (rest : List (List UInt8)) (q : Program D) (table : .catType ∈ layout → 79 ≤ t.protoVersion)
    (some_left : rest = [] → ∀ f, layout.getLast? = some f → f.write codec t.protoVersion p ≠ [])
    (reading : Reading t (joinFields separator
      (layout.map (fun f => f.write codec t.protoVersion p) ++ rest))) :
    (receiveFields codec layout q t).1 = some (copies p q layout) ∧
      Reading (receiveFields codec layout q t).2 (joinFields separator rest) ∧
      ∃ taken, Moved t (receiveFields codec layout q t).2 taken ∧
        joinFields separator (layout.map (fun f => f.write codec t.protoVersion p) ++ rest) =
          taken ++ joinFields separator rest := by
  induction layout generalizing t q with
  | nil => exact ⟨rfl, reading, [], ⟨by simp [receiveFields], rfl⟩, rfl⟩
  | cons f layout ih =>
    obtain ⟨result, reading', taken, moved, whole⟩ := readField_text
      (ProgramField.write_clean encodable t.protoVersion f).2 (by
        intro none_left
        obtain ⟨short, rfl⟩ := List.append_eq_nil_iff.mp none_left
        obtain rfl := List.map_eq_nil_iff.mp short
        exact some_left rfl f rfl) reading
    have value := ProgramField.read_write encodable q f fun h => table (by simp [h])
    have version := moved.protoVersion
    rw [← version] at reading' table some_left
    obtain ⟨program, reading'', taken', moved', whole'⟩ :=
      ih (f.copy p q) (fun h => table (List.mem_cons_of_mem f h))
        (fun none_left g last => some_left none_left g (by
          cases layout with
          | nil => simp at last
          | cons => simpa using last)) reading'
    rw [version] at whole'
    simp only [receiveFields, result, value]
    refine ⟨program, reading'', taken ++ taken', moved.trans moved', ?_⟩
    rw [List.append_assoc, ← whole']
    exact whole

theorem receiveFields_missing (encodable : Encodable codec p) (layout : List ProgramField)
    (last : ProgramField) (q : Program D)
    (reading : Reading t (joinFields separator
      (layout.map (fun f => f.write codec t.protoVersion p) ++ [[]]))) :
    (receiveFields codec (layout ++ [last]) q t).1 = none := by
  induction layout generalizing t q with
  | nil => simp only [List.nil_append, receiveFields, readField_end reading]
  | cons f layout ih =>
    obtain ⟨result, reading', _, moved, _⟩ := readField_text
      (ProgramField.write_clean encodable t.protoVersion f).2 (by simp) reading
    rw [← moved.protoVersion] at reading'
    simp only [List.cons_append, receiveFields, result]
    cases hv : f.read codec t.protoVersion q (f.write codec t.protoVersion p) with
    | none => rfl
    | some q' => exact ih q' reading'

theorem receiveFields_advances (codec : DoubleCodec D) (layout : List ProgramField)
    (texts : List (List UInt8)) (q : Program D) (plain : ∀ text ∈ texts, 91 ∉ text)
    (last : texts.getLast? ≠ some []) (short : layout.length < texts.length)
    (reading : Reading t (joinFields separator texts)) :
    ∃ n ≤ layout.length,
      Reading (receiveFields codec layout q t).2 (joinFields separator (texts.drop n)) ∧
      (receiveFields codec layout q t).2.protoVersion = t.protoVersion := by
  induction layout generalizing t q texts with
  | nil => exact ⟨0, le_refl 0, reading, rfl⟩
  | cons f layout ih =>
    obtain ⟨text, texts, rfl⟩ := List.exists_cons_of_length_pos (Nat.zero_lt_of_lt short)
    obtain ⟨result, reading', _, moved, _⟩ := readField_text (plain text (by simp))
      (fun h => by simp [h] at short) reading
    have version := moved.protoVersion
    simp only [receiveFields, result]
    cases f.read codec t.protoVersion q text with
    | none => exact ⟨1, by simp, reading', version⟩
    | some q' =>
      obtain ⟨n, bound, reading'', version'⟩ := ih texts q'
        (fun x hx => plain x (List.mem_cons_of_mem text hx))
        (by
          intro h
          cases texts with
          | nil => simp at h
          | cons => exact last (by simpa using h))
        (by simpa using short) reading'
      exact ⟨n + 1, by simpa using bound, reading'', version'.trans version⟩

theorem receivedLayout_eq {version : Nat} (wide : 76 ≤ version) :
    receivedLayout version = sentLayout version ∧
      receivedLayout version ∈ [received76, received79, received82, received86] := by
  unfold receivedLayout sentLayout
  by_cases h86 : version ≥ 86
  · simp only [if_pos h86, received86, sent86, List.mem_cons, true_or, or_true, and_self]
  by_cases h82 : version ≥ 82
  · simp only [if_neg h86, if_pos h82, received82, sent82, List.mem_cons, true_or, or_true,
      and_self]
  by_cases h79 : version ≥ 79
  · simp only [if_neg h86, if_neg h82, if_pos h79, received79, sent79, List.mem_cons, true_or,
      or_true, and_self]
  · simp only [if_neg h86, if_neg h82, if_neg h79, if_pos wide, received76, sent76,
      List.mem_cons, true_or, and_self]

theorem layouts_of_old {version : Nat} (old : version < 76) :
    receivedLayout version = received75 ∧ sentLayout version = sent75 := by
  unfold receivedLayout sentLayout
  simp only [if_neg (show ¬ version ≥ 86 by omega), if_neg (show ¬ version ≥ 82 by omega),
    if_neg (show ¬ version ≥ 79 by omega), if_neg (show ¬ version ≥ 76 by omega), and_self]

/-- A layout sets each of its members once, whatever is set after it. -/
theorem agrees_copies {layout : List ProgramField} (p q : Program D)
    (known : layout ∈ [received76, received79, received82, received86]) (f : ProgramField)
    (carried : f ∈ layout) : f.Agrees p (copies p q layout) := by
  simp only [List.mem_cons, List.not_mem_nil, or_false] at known
  obtain rfl | rfl | rfl | rfl := known
  all_goals
    simp only [received76, received79, received82, received86, copies, List.foldl_cons,
      List.foldl_nil, ProgramField.copy]
    cases f <;> first | rfl | contradiction | trivial

theorem catType_mem {version : Nat} (carried : .catType ∈ receivedLayout version) :
    79 ≤ version := by
  by_contra old
  have layout : receivedLayout version = received76 ∨ receivedLayout version = received75 := by
    unfold receivedLayout
    rw [if_neg (by omega), if_neg (by omega), if_neg (by omega)]
    by_cases h76 : version ≥ 76
    · exact .inl (if_pos h76)
    · exact .inr (if_neg h76)
  rcases layout with layout | layout <;> rw [layout] at carried <;>
    exact absurd carried (by decide)

theorem last_ne_nil {version : Nat} (narrow : version < 86) (f : ProgramField)
    (last : (sentLayout version).getLast? = some f) : f.write codec version p ≠ [] := by
  have number : f = .year ∨ f = .partTotal ∨ f = .catType ∨ f = .recordedId := by
    unfold sentLayout at last
    rw [if_neg (by omega)] at last
    split_ifs at last <;> simp only [sent82, sent79, sent76, sent75] at last <;>
      simp at last <;> simp [← last]
  rcases number with rfl | rfl | rfl | rfl
  · simp [ProgramField.write, ascii]
  · simp [ProgramField.write, ascii]
  · rw [ProgramField.write, uint8ToString_decimal]
    exact decimal_ne_nil _
  · rw [ProgramField.write, uint32ToString_decimal]
    exact decimal_ne_nil _

theorem rcvProgramInfo_texts (encodable : Encodable codec p) (rest : List (List UInt8))
    (wide : 76 ≤ t.protoVersion) (some_left : rest = [] → t.protoVersion < 86)
    (reading : Reading t (joinFields separator (programTexts codec t.protoVersion p ++ rest))) :
    (∃ q, (rcvProgramInfo codec t).1 = some q ∧
      ∀ f ∈ receivedLayout t.protoVersion, f.Agrees p q) ∧
      Reading (rcvProgramInfo codec t).2 (joinFields separator rest) ∧
      ∃ taken, Moved t (rcvProgramInfo codec t).2 taken ∧
        joinFields separator (programTexts codec t.protoVersion p ++ rest) =
          taken ++ joinFields separator rest := by
  obtain ⟨layout, known⟩ := receivedLayout_eq wide
  simp only [programTexts, ← layout] at reading ⊢
  obtain ⟨program, reading', moved⟩ := receiveFields_texts encodable
    (receivedLayout t.protoVersion) rest { stars := codec.zero } catType_mem
    (fun none_left f last => last_ne_nil (some_left none_left) f (layout ▸ last)) reading
  exact ⟨⟨_, program, agrees_copies p _ known⟩, reading', moved⟩

theorem programTexts_ne_nil (codec : DoubleCodec D) (version : Nat) (p : Program D) :
    programTexts codec version p ≠ [] := by
  unfold programTexts sentLayout
  split_ifs <;> simp [sent86, sent82, sent79, sent76, sent75]

theorem makeProgramInfos_eq (codec : DoubleCodec D) (version : Nat) (ps : List (Program D)) :
    makeProgramInfos codec version ps =
      joinFields separator (ps.flatMap (programTexts codec version)) := by
  have nonempty : ∀ g ∈ ps.map (programTexts codec version), g ≠ [] := by
    intro g hg
    obtain ⟨p, -, rfl⟩ := List.mem_map.mp hg
    exact programTexts_ne_nil codec version p
  rw [List.flatMap_def, ← joinFields_flatten separator nonempty, List.map_map]
  rfl

theorem makeProgramInfos_clean (version : Nat) {ps : List (Program D)}
    (encodable : ∀ p ∈ ps, Encodable codec p) : 0 ∉ makeProgramInfos codec version ps := by
  rw [makeProgramInfos_eq]
  apply clean_joinFields
  intro text ht
  obtain ⟨p, hp, ht⟩ := List.mem_flatMap.mp ht
  obtain ⟨f, -, rfl⟩ := List.mem_map.mp ht
  exact (ProgramField.write_clean (encodable p hp) version f).1

/-- The programs come back, each with the members that both layouts have, and all bytes of
the message are taken. -/
structure Decodes (codec : DoubleCodec D) (t : ProtoBase) (ps : List (Program D)) : Prop where
  programs : List.Forall₂ (fun p result => ∃ q, result = some q ∧
    ∀ f, f ∈ sentLayout t.protoVersion → f ∈ receivedLayout t.protoVersion → f.Agrees p q)
    ps (rcvProgramInfos codec ps.length t).1
  unread : (rcvProgramInfos codec ps.length t).2.msgConsumed =
    (rcvProgramInfos codec ps.length t).2.msgLength
  taken : (rcvProgramInfos codec ps.length t).2.socket.received =
    t.socket.received ++ makeProgramInfos codec t.protoVersion ps

theorem none_not_mem {α β : Type} {R : α → β → Prop} {as : List α} {results : List (Option β)}
    (found : List.Forall₂ (fun a result => ∃ b, result = some b ∧ R a b) as results) :
    none ∉ results := by
  induction found with
  | nil => simp
  | cons head _ ih =>
    obtain ⟨b, rfl, -⟩ := head
    simpa using ih

theorem decodes_of_version (ps : List (Program D)) (encodable : ∀ p ∈ ps, Encodable codec p)
    (wide : 76 ≤ t.protoVersion) (narrow : t.protoVersion < 86)
    (reading : Reading t (makeProgramInfos codec t.protoVersion ps)) : Decodes codec t ps := by
  induction ps generalizing t with
  | nil =>
    have done : t.msgConsumed = t.msgLength := reading.counters
    exact ⟨.nil, done, (List.append_nil _).symm⟩
  | cons p ps ih =>
    rw [makeProgramInfos_eq, List.flatMap_cons] at reading
    obtain ⟨⟨q, result, agrees⟩, reading', front, moved, whole⟩ :=
      rcvProgramInfo_texts (encodable p (by simp)) _ wide (fun _ => narrow) reading
    have version := moved.protoVersion
    rw [← makeProgramInfos_eq] at reading' whole
    obtain ⟨programs, unread, taken⟩ := ih (t := (rcvProgramInfo codec t).2)
      (fun p hp => encodable p (by simp [hp])) (version ▸ wide) (version ▸ narrow)
      (version ▸ reading')
    rw [version] at programs taken
    refine ⟨.cons ⟨q, result, fun f _ carried => agrees f carried⟩ programs, unread, ?_⟩
    rw [makeProgramInfos_eq codec t.protoVersion (p :: ps), List.flatMap_cons, whole,
      ← List.append_assoc, ← moved.received]
    exact taken

theorem none_of_wide (ps : List (Program D)) (encodable : ∀ p ∈ ps, Encodable codec p)
    (wide : 86 ≤ t.protoVersion) (some_program : ps ≠ [])
    (reading : Reading t (makeProgramInfos codec t.protoVersion ps)) :
    none ∈ (rcvProgramInfos codec ps.length t).1 := by
  induction ps generalizing t with
  | nil => exact absurd rfl some_program
  | cons p ps ih =>
    rw [makeProgramInfos_eq, List.flatMap_cons] at reading
    by_cases last : ps = []
    · subst last
      have layout : receivedLayout t.protoVersion =
          received86.dropLast ++ [.bookmarkupdate] := if_pos wide
      have texts : programTexts codec t.protoVersion p =
          received86.dropLast.map (fun f => f.write codec t.protoVersion p) ++ [[]] := by
        rw [programTexts, sentLayout, if_pos wide]
        rfl
      rw [List.flatMap_nil, List.append_nil, texts] at reading
      have lost := receiveFields_missing (encodable p (by simp)) received86.dropLast
        .bookmarkupdate { stars := codec.zero } reading
      rw [← layout] at lost
      exact List.mem_cons.mpr (.inl lost.symm)
    · have more : ps.flatMap (programTexts codec t.protoVersion) ≠ [] := by
        obtain ⟨p', ps', rfl⟩ := List.exists_cons_of_ne_nil last
        simp [programTexts_ne_nil]
      obtain ⟨-, reading', _, moved, _⟩ := rcvProgramInfo_texts (encodable p (by simp)) _
        (by omega) (fun none_left => absurd none_left more) reading
      have version := moved.protoVersion
      rw [← makeProgramInfos_eq, ← version] at reading'
      exact List.mem_cons_of_mem _ (ih (fun p hp => encodable p (by simp [hp]))
        (version ▸ wide) last reading')

theorem rcvProgramInfos_advances (codec : DoubleCodec D) (k : Nat) (texts : List (List UInt8))
    (old : t.protoVersion < 76) (plain : ∀ text ∈ texts, 91 ∉ text)
    (last : texts.getLast? ≠ some []) (short : k * received75.length < texts.length)
    (reading : Reading t (joinFields separator texts)) :
    ∃ n < texts.length,
      Reading (rcvProgramInfos codec k t).2 (joinFields separator (texts.drop n)) := by
  induction k generalizing t texts with
  | zero => exact ⟨0, by simpa using short, reading⟩
  | succ k ih =>
    have layout : receivedLayout t.protoVersion = received75 := (layouts_of_old old).1
    have room : received75.length + k * received75.length < texts.length := by
      rwa [Nat.succ_mul, Nat.add_comm] at short
    obtain ⟨n, bound, reading', version⟩ := receiveFields_advances codec received75 texts
      { stars := codec.zero } plain last (by omega) reading
    have more : n < texts.length := by omega
    have last' : (texts.drop n).getLast? ≠ some [] := by
      rwa [List.getLast?_drop, if_neg (by omega)]
    obtain ⟨m, bound', reading''⟩ := ih (texts.drop n) (version ▸ old)
      (fun x hx => plain x (List.mem_of_mem_drop hx)) last' (by rw [List.length_drop]; omega)
      reading'
    rw [List.length_drop] at bound'
    refine ⟨n + m, by omega, ?_⟩
    rw [← List.drop_drop]
    simpa only [rcvProgramInfos, rcvProgramInfo, layout] using reading''

theorem unread_of_old (ps : List (Program D)) (encodable : ∀ p ∈ ps, Encodable codec p)
    (old : t.protoVersion < 76) (some_program : ps ≠ [])
    (reading : Reading t (makeProgramInfos codec t.protoVersion ps)) :
    (rcvProgramInfos codec ps.length t).2.msgConsumed ≠
      (rcvProgramInfos codec ps.length t).2.msgLength := by
  have layout : sentLayout t.protoVersion = sent75 := (layouts_of_old old).2
  rw [makeProgramInfos_eq] at reading
  have plain : ∀ text ∈ ps.flatMap (programTexts codec t.protoVersion), 91 ∉ text := by
    intro text ht
    obtain ⟨p, hp, ht⟩ := List.mem_flatMap.mp ht
    obtain ⟨f, -, rfl⟩ := List.mem_map.mp ht
    exact (ProgramField.write_clean (encodable p hp) _ f).2
  have length : (ps.flatMap (programTexts codec t.protoVersion)).length = ps.length * 44 := by
    simp [List.length_flatMap, programTexts, layout, sent75]
  have last : (ps.flatMap (programTexts codec t.protoVersion)).getLast? = some (ascii "0") := by
    obtain ⟨front, p, rfl⟩ := (List.eq_nil_or_concat' ps).resolve_left some_program
    rw [List.flatMap_append, List.flatMap_singleton, List.getLast?_append, programTexts, layout]
    rfl
  have positive := List.length_pos_of_ne_nil some_program
  have fields : received75.length = 42 := rfl
  obtain ⟨n, bound, reading'⟩ := rcvProgramInfos_advances codec ps.length _ old plain
    (by rw [last]; decide) (by rw [length, fields]; omega) reading
  have left : ascii "0" ∈ (ps.flatMap (programTexts codec t.protoVersion)).drop n := by
    refine List.mem_of_getLast? ?_
    rw [List.getLast?_drop, if_neg (by omega), last]
  have some_bytes := List.length_pos_of_ne_nil
    (joinFields_ne_nil separator left (by decide))
  have counters := reading'.counters
  omega

/-- Reception gives the sent programs back exactly from version 76 to 85. -/
theorem decodes_iff_version (codec : DoubleCodec D) (t : ProtoBase) (ps : List (Program D))
    (encodable : ∀ p ∈ ps, Encodable codec p)
    (msgLength : t.msgLength = (makeProgramInfos codec t.protoVersion ps).length)
    (msgConsumed : t.msgConsumed = 0)
    (arrives : t.socket.Delivers (makeProgramInfos codec t.protoVersion ps)) :
    Decodes codec t ps ↔ ps = [] ∨ (76 ≤ t.protoVersion ∧ t.protoVersion < 86) := by
  have reading : Reading t (makeProgramInfos codec t.protoVersion ps) :=
    ⟨by rw [msgConsumed, msgLength, Nat.zero_add], arrives, makeProgramInfos_clean _ encodable⟩
  constructor
  · intro decodes
    by_contra other
    rw [not_or, not_and_or, Nat.not_le, Nat.not_lt] at other
    obtain ⟨some_program, old | wide⟩ := other
    · exact unread_of_old ps encodable old some_program reading decodes.unread
    · have lost := none_of_wide ps encodable wide some_program reading
      exact absurd lost (none_not_mem decodes.programs)
  · rintro (rfl | ⟨wide, narrow⟩)
    · exact ⟨.nil, reading.counters, (List.append_nil _).symm⟩
    · exact decodes_of_version ps encodable wide narrow reading

def zeroCodec : DoubleCodec Unit :=
  ⟨(), fun _ => ascii "0", fun _ => some (), fun _ => by decide⟩

def news : Program Unit :=
  { title := ascii "News", catType := ascii "tvshow", startTime := 1700000000,
    channel.chanId := 1001, recording.priority := -1, stars := () }

theorem news_encodable : Encodable zeroCodec news where
  texts := by simp [Program.texts, news, ascii]
  category := by decide
  times := by
    simp only [Program.times, news, List.forall_mem_cons]
    exact ⟨by decide, by decide, by decide, by decide, by decide, by decide, by simp⟩
  priority := by decide
  stars := rfl

/-- A connection where the bytes of a message of `ps` come in one at a time. -/
def trickleInfos (protoVersion : Nat) (ps : List (Program Unit)) : ProtoBase :=
  { trickle (makeProgramInfos zeroCodec protoVersion ps) with protoVersion := protoVersion }

theorem decodes_iff_version_news : Decodes zeroCodec (trickleInfos 79 [news, news]) [news, news] :=
  (decodes_iff_version zeroCodec _ _ (by simp [news_encodable]) rfl rfl
    ⟨rfl, fun _ => ⟨0, rfl⟩, List.prefix_rfl⟩).mpr (.inr (by decide))

/-- At version 91 a program that is alone in its message is lost. -/
theorem not_always_decodes :
    ¬ ∀ (t : ProtoBase) (ps : List (Program Unit)), (∀ p ∈ ps, Encodable zeroCodec p) →
      t.msgLength = (makeProgramInfos zeroCodec t.protoVersion ps).length → t.msgConsumed = 0 →
      t.socket.Delivers (makeProgramInfos zeroCodec t.protoVersion ps) →
      Decodes zeroCodec t ps := by
  intro claim
  have encodable : ∀ p ∈ [news], Encodable zeroCodec p := by simp [news_encodable]
  have arrives : (trickleInfos 91 [news]).socket.Delivers (makeProgramInfos zeroCodec 91 [news]) :=
    ⟨rfl, fun _ => ⟨0, rfl⟩, List.prefix_rfl⟩
  have decodes := claim (trickleInfos 91 [news]) [news] encodable rfl rfl arrives
  have reading : Reading (trickleInfos 91 [news]) (makeProgramInfos zeroCodec 91 [news]) :=
    ⟨by simp only [trickleInfos, trickle, connected, Nat.zero_add], arrives,
      makeProgramInfos_clean 91 encodable⟩
  have wide : 86 ≤ (trickleInfos 91 [news]).protoVersion := by decide
  have lost := none_of_wide [news] encodable wide (List.cons_ne_nil news []) reading
  exact absurd lost (none_not_mem decodes.programs)

end ProtoBase

end CppMyth
