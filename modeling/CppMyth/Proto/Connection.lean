import CppMyth.Proto.Fate
import CppMyth.Proto.Fields
import CppMyth.Proto.Framing

/-! The version handshake of `mythprotobase.cpp`: one connection for each version that is
tried, and the version that the backend names in its answer is tried next. -/
namespace CppMyth
open Library

/-- The bytes of a literal in the encoding of the source file. -/
def utf8 (s : String) : List UInt8 := s.toList.flatMap String.utf8EncodeChar

/-- The entry of version 0 that ends the table is left out. -/
def protomap : List (Nat × List UInt8) :=
  [(91, utf8 "BuzzOff"), (90, utf8 "BuzzCut"), (89, utf8 "BuzzKill"), (88, utf8 "XmasGift"),
    (87, utf8 "(ノಠ益ಠ)ノ彡┻━┻_No_entiendo!)"), (86, utf8 "(ノಠ益ಠ)ノ彡┻━┻"),
    (85, utf8 "BluePool"), (84, utf8 "CanaryCoalmine"), (83, utf8 "BreakingGlass"),
    (82, utf8 "IdIdO"), (81, utf8 "MultiRecDos"), (80, utf8 "TaDah!"), (79, utf8 "BasaltGiant"),
    (77, utf8 "WindMark"), (76, utf8 "FireWilde"), (75, utf8 "SweetRock")]

inductive ProtoError where
  | NO_ERROR | SERVER_UNREACHABLE | SOCKET_ERROR | UNKNOWN_VERSION
  deriving DecidableEq, Repr

/-- What OpenConnection leaves. `attempts` counts the connections it asked for, and
`myVersion` is its static variable. -/
structure Opened where
  ok : Bool
  protoError : ProtoError
  attempts : Nat
  myVersion : Nat
  proto : ProtoBase

namespace ProtoBase

/-- The command for an entry of the table. -/
def versionCommand (map : Nat × List UInt8) : List UInt8 :=
  ascii "MYTH_PROTO_VERSION " ++ decimal map.1 ++ ascii " " ++ map.2

/-- The first field, ACCEPT or REJECT, is read and not looked at. -/
def rcvVersion (t : ProtoBase) : Option Nat × ProtoBase :=
  let first := t.readField
  let second := first.2.readField
  match first.1, second.1 with
  | none, _ => (none, first.2.flushMessage.2)
  | some _, none => (none, second.2.flushMessage.2)
  | some _, some field =>
    let flushed := second.2.flushMessage
    if flushed.1 ≠ 0 then (none, flushed.2)
    else match stringToUint32 field with
      | .error _ => (none, flushed.2.flushMessage.2)
      | .ok val => (some val.toNat, flushed.2)

/-- The connection that a try gets: its number and the version announced on it are what the
backend may look at. No connection comes where Connect fails. -/
abbrev Peer := Nat → Nat → Option TcpSocket

/-- The exit under the loop. -/
def openFailed (t : ProtoBase) (error : ProtoError) (attempts myVersion : Nat) : Opened :=
  ⟨false, error, attempts, myVersion,
    { t with socket := t.socket.disconnect, isOpen := false, protoVersion := 0 }⟩

/-- The loop of OpenConnection, for `fuel` turns at most: there is no bound in the source. -/
def openLoop (peer : Peer) (myVersion : Nat) : Nat → Nat → Nat → ProtoBase → Option Opened
  | 0, _, _, _ => none
  | fuel + 1, i, ver, t =>
    match protomap.find? (·.1 = ver) with
    | none => some (t.openFailed .UNKNOWN_VERSION i myVersion)
    | some map =>
      match peer i map.1 with
      | none =>
        -- hang will remain up allowing retry
        some (openFailed { t with hang := true } .SERVER_UNREACHABLE (i + 1) myVersion)
      | some socket =>
        let sent := sendCommand { t with socket := socket, hang := false } (versionCommand map) true
        let rcv := sent.2.rcvVersion
        if sent.1 then
          match rcv.1 with
          | none => some (rcv.2.openFailed .SOCKET_ERROR (i + 1) myVersion)
          | some version =>
            if map.1 = version then
              some ⟨true, .NO_ERROR, i + 1, version,
                { rcv.2 with isOpen := true, protoVersion := version }⟩
            else
              openLoop peer myVersion fuel (i + 1) version
                { rcv.2 with socket := rcv.2.socket.disconnect }
        else some (sent.2.openFailed .SOCKET_ERROR (i + 1) myVersion)

/-- The version that is tried first. -/
def firstVersion (myVersion : Nat) : Nat := if myVersion = 0 then 91 else myVersion

def openConnection (peer : Peer) (myVersion fuel : Nat) (t : ProtoBase) : Option Opened :=
  openLoop peer myVersion fuel 0 (firstVersion myVersion) (if t.isOpen then t.close else t)

/-- What a backend does with the announcement of a version. -/
inductive Reply where
  | unreachable
  | silent
  | accept (version : Nat)
  | reject (version : Nat)
  deriving DecidableEq, Repr

def Reply.named : Reply → Option Nat
  | .unreachable => none
  | .silent => none
  | .accept version => some version
  | .reject version => some version

/-- The request goes out and the answer comes in, in any segments. -/
structure Replied (s : TcpSocket) (word : List UInt8) (version : Nat) : Prop where
  sends : s.sends 0 = true
  sent : s.sent = []
  arrives : ∃ hdr,
    (∀ junk, IsHeader junk hdr (joinFields separator [word, decimal version]).length) ∧
    s.Delivers (hdr ++ joinFields separator [word, decimal version])

/-- A connection on which the backend behaves as the reply says. It is silent when the length
of an answer never comes, or nothing comes in time. -/
def Speaks : Option TcpSocket → Reply → Prop
  | none, .unreachable => True
  | some s, .silent => s.pending.length < 8 ∨ s.buffer = [] ∧ ∀ k, s.polls 0 ≠ .ready k
  | some s, .accept version => Replied s (ascii "ACCEPT") version
  | some s, .reject version => Replied s (ascii "REJECT") version
  | _, _ => False

def Known (version : Nat) : Prop := version ∈ protomap.map (·.1)

instance (version : Nat) : Decidable (Known version) := inferInstanceAs (Decidable (_ ∈ _))

/-- The version that is announced `n` tries after try `i`, which is for `v`. There is none when
the replies bring no further try. -/
def tried (replies : Nat → Nat → Reply) : Nat → Nat → Nat → Option Nat
  | 0, _, v => if Known v then some v else none
  | n + 1, i, v =>
    if Known v then
      (replies i v).named.bind fun w => if w = v then none else tried replies n (i + 1) w
    else none

/-- The backend names no version that was announced before the last one: no version is
announced on two connections. -/
def Advances (replies : Nat → Nat → Reply) (v : Nat) : Prop :=
  ∀ m n w, m < n → tried replies m 0 v = some w → tried replies n 0 v ≠ some w

/-- No message is begun. -/
structure Idle (t : ProtoBase) : Prop where
  msgLength : t.msgLength = 0
  msgConsumed : t.msgConsumed = 0

theorem protomap_find? {version : Nat} (known : Known version) :
    ∃ map ∈ protomap, protomap.find? (·.1 = version) = some map ∧ map.1 = version := by
  obtain ⟨map, mem, rfl⟩ := List.mem_map.mp known
  cases found : protomap.find? (·.1 = map.1) with
  | none => exact absurd (List.find?_eq_none.mp found map mem) (by simp)
  | some first => exact ⟨first, List.mem_of_find?_eq_some found, rfl, by
      simpa using List.find?_some found⟩

theorem protomap_find?_none {version : Nat} (unknown : ¬ Known version) :
    protomap.find? (·.1 = version) = none := by
  rw [List.find?_eq_none]
  intro map mem same
  exact unknown (List.mem_map.mpr ⟨map, mem, by simpa using same⟩)

theorem known_small {version : Nat} (known : Known version) : version < 2 ^ 32 := by
  have all : ∀ v ∈ protomap.map (·.1), v < 2 ^ 32 := by decide
  exact all version known

theorem versionCommand_length : ∀ map ∈ protomap,
    0 < (versionCommand map).length ∧ (versionCommand map).length < sendMsgMaxSize := by
  decide +kernel

section Handshake

variable {t : ProtoBase} {s : TcpSocket} {word : List UInt8} {version : Nat}
  {map : Nat × List UInt8}

/-- The connection once the announcement has gone out on `s`. -/
def requested (t : ProtoBase) (s : TcpSocket) (map : Nat × List UInt8) : ProtoBase :=
  { t with hang := false, socket := { s with
      sends := fun i => s.sends (i + 1), errno := .none,
      sent := s.sent ++ (header (versionCommand map).length ++ versionCommand map) } }

theorem sendCommand_requested (idle : Idle t) (mem : map ∈ protomap) (valid : s.valid = true)
    (sends : s.sends 0 = true) :
    sendCommand { t with socket := s, hang := false } (versionCommand map) true =
      (requested t s map).rcvMessageLength := by
  have fits := versionCommand_length map mem
  have request : sendRequest { t with socket := s, hang := false } (versionCommand map) =
      (true, requested t s map) := by
    simp [sendRequest, idle.msgLength, idle.msgConsumed, fits, TcpSocket.sendData, valid, sends,
      requested]
  simp [sendCommand, request]

theorem rcvMessageLength_replied (idle : Idle t) {hdr body : List UInt8}
    (announced : ∀ junk, IsHeader junk hdr body.length)
    (arrives : t.socket.Delivers (hdr ++ body)) (clean : 0 ∉ body) :
    t.rcvMessageLength.1 = true ∧ Reading t.rcvMessageLength.2 body := by
  obtain ⟨wide, val, parsed, len⟩ := announced (t.stack 0)
  obtain ⟨got, rest⟩ := TcpSocket.receiveData_delivers arrives
  rw [wide] at got rest
  unfold rcvMessageLength
  rw [if_neg (by rw [idle.msgLength]; exact Nat.lt_irrefl 0)]
  simp only [got, wide, if_true, parsed]
  exact ⟨trivial, ⟨by simp [len], rest, clean⟩⟩

theorem rcvVersion_replied (plain : 91 ∉ word)
    (reading : Reading t (joinFields separator [word, decimal version])) :
    t.rcvVersion.1 = (if version < 2 ^ 32 then some version else none) ∧ Idle t.rcvVersion.2 := by
  have digits : 91 ∉ decimal version := not_mem_of_isdigit (decimal_isdigit version) (by decide)
  obtain ⟨first, reading', -⟩ := readField_text plain (by simp) reading
  obtain ⟨second, reading'', -⟩ := readField_text digits (fun _ => decimal_ne_nil version) reading'
  have read : t.readField.2.readField.2.flushMessage.1 = 0 := by
    have left :
        t.readField.2.readField.2.msgLength - t.readField.2.readField.2.msgConsumed = 0 := by
      have := reading''.counters
      simp only [joinFields, List.length_nil] at this
      omega
    simp [flushMessage, flushLoop, left]
  unfold rcvVersion
  simp only [first, second, read, ne_eq, not_true_eq_false, if_false]
  by_cases small : version < 2 ^ 32
  · rw [stringToUint32_decimal small, if_pos small]
    exact ⟨by simp [UInt32.toNat_ofNat_of_lt' small], rfl, rfl⟩
  · rw [stringToUint32_overflow (Nat.le_of_not_lt small), if_neg small]
    exact ⟨rfl, rfl, rfl⟩

theorem requested_sent (t : ProtoBase) (fresh : s.sent = []) :
    (requested t s map).socket.sent =
      header (versionCommand map).length ++ versionCommand map := by
  simp [requested, fresh]

theorem rcvVersion_fate (t : ProtoBase) : Fate t t.rcvVersion.2 := by
  have first := readField_fate t
  have second := first.trans (readField_fate t.readField.2)
  cases h1 : t.readField.1 with
  | none =>
    simp only [rcvVersion, h1]
    exact first.trans (flushMessage_fate _)
  | some word =>
    cases h2 : t.readField.2.readField.1 with
    | none =>
      simp only [rcvVersion, h1, h2]
      exact second.trans (flushMessage_fate _)
    | some field =>
      have flushed := second.trans (flushMessage_fate _)
      simp only [rcvVersion, h1, h2]
      by_cases left : t.readField.2.readField.2.flushMessage.1 ≠ 0
      · rw [if_pos left]
        exact flushed
      · rw [if_neg left]
        cases stringToUint32 field with
        | ok _ => exact flushed
        | error _ =>
          simp only
          exact flushed.trans (flushMessage_fate _)

/-- A whole answer: its number is what the client goes by, whatever its word. -/
theorem handshake_replied (idle : Idle t) (mem : map ∈ protomap) (plain : 91 ∉ word ∧ 0 ∉ word)
    (replied : Replied s word version) :
    let sent := sendCommand { t with socket := s, hang := false } (versionCommand map) true
    sent.1 = true ∧ sent.2.rcvVersion.1 = (if version < 2 ^ 32 then some version else none) ∧
      Idle sent.2.rcvVersion.2 ∧ sent.2.rcvVersion.2.socket.sent =
        header (versionCommand map).length ++ versionCommand map := by
  obtain ⟨hdr, announced, arrives⟩ := replied.arrives
  have clean : 0 ∉ joinFields separator [word, decimal version] := by
    apply clean_joinFields
    intro f hf
    rcases List.mem_pair.mp hf with rfl | rfl
    · exact plain.2
    · exact not_mem_of_isdigit (decimal_isdigit version) (by decide)
  have delivers : (requested t s map).socket.Delivers
      (hdr ++ joinFields separator [word, decimal version]) :=
    ⟨arrives.valid, arrives.polls, arrives.pending⟩
  have begun := rcvMessageLength_replied (t := requested t s map) ⟨idle.msgLength, idle.msgConsumed⟩
    announced delivers clean
  have rcv := rcvVersion_replied plain.1 begun.2
  intro sent
  have same : sent = (requested t s map).rcvMessageLength :=
    sendCommand_requested idle mem arrives.valid replied.sends
  rw [same]
  refine ⟨begun.1, rcv.1, rcv.2, ?_⟩
  rw [(rcvVersion_fate _).sent, (rcvMessageLength_fate _).sent]
  exact requested_sent t replied.sent

theorem receiveData_silent {n : Nat} (positive : 0 < n)
    (silent : s.pending.length < n ∨ s.buffer = [] ∧ ∀ k, s.polls 0 ≠ .ready k) :
    (s.receiveData n).1.length < n := by
  obtain ⟨-, hp, -⟩ := s.receiveData_spec n
  rcases silent with short | ⟨empty, quiet⟩
  · rw [hp, List.length_append] at short
    omega
  · have nothing :
        (TcpSocket.receiveLoop n { s with errno := .none, buffer := [] } n []).1 = [] := by
      cases n with
      | zero => rfl
      | succ n =>
        unfold TcpSocket.receiveLoop
        cases h : s.polls 0 with
        | ready k => exact absurd h (quiet k)
        | _ => simp
    unfold TcpSocket.receiveData
    split
    · simpa [empty, nothing] using positive
    · exact positive

theorem handshake_silent (idle : Idle t) (mem : map ∈ protomap) (speaks : Speaks (some s) .silent) :
    (sendCommand { t with socket := s, hang := false } (versionCommand map) true).1 = false := by
  by_cases went : s.valid = true ∧ s.sends 0 = true
  · have short : ((requested t s map).socket.receiveData 8).1.length < 8 :=
      receiveData_silent (by decide) speaks
    rw [sendCommand_requested idle mem went.1 went.2]
    unfold rcvMessageLength
    split
    · rfl
    · simp only [if_neg (Nat.ne_of_lt short)]
  · have fits := versionCommand_length map mem
    have unsent : (sendRequest { t with socket := s, hang := false } (versionCommand map)).1 =
        false := by
      simp only [sendRequest, idle.msgLength, idle.msgConsumed, fits, TcpSocket.sendData]
      cases valid : s.valid <;> cases sends : s.sends 0 <;> simp_all
    simp [sendCommand, unsent]

end Handshake

section Loop

variable {peer : Peer} {replies : Nat → Nat → Reply} {myVersion fuel i v : Nat} {t : ProtoBase}

/-- The announcement of `version` is what went out on the connection. -/
def Announces (t : ProtoBase) (version : Nat) : Prop :=
  ∃ map ∈ protomap, map.1 = version ∧
    t.socket.sent = header (versionCommand map).length ++ versionCommand map

/-- The loop came back from try `i` with the agreement on `v`. -/
structure Agreed (replies : Nat → Nat → Reply) (i v : Nat) (opened : Opened) : Prop where
  known : Known v
  named : (replies i v).named = some v
  attempts : opened.attempts = i + 1
  ok : opened.ok = true
  myVersion : opened.myVersion = v
  protoVersion : opened.proto.protoVersion = v
  isOpen : opened.proto.isOpen = true
  announced : opened.proto.Announces v

/-- The loop came back from try `i`, or before it, with nothing. -/
structure Failed (replies : Nat → Nat → Reply) (myVersion i v : Nat) (opened : Opened) :
    Prop where
  cause : ∀ w, Known v → (replies i v).named = some w → ¬ Known w
  attempts : opened.attempts ≤ i + if Known v then 1 else 0
  ok : opened.ok = false
  stored : opened.myVersion = myVersion

/-- One turn of the loop. -/
inductive Turn (peer : Peer) (replies : Nat → Nat → Reply) (myVersion fuel i v : Nat) :
    Option Opened → Prop
  | agreed (opened : Opened) : Agreed replies i v opened →
      Turn peer replies myVersion fuel i v (some opened)
  | failed (opened : Opened) : Failed replies myVersion i v opened →
      Turn peer replies myVersion fuel i v (some opened)
  | next (w : Nat) (t : ProtoBase) : Known v → (replies i v).named = some w → w ≠ v → Idle t →
      Turn peer replies myVersion fuel i v (openLoop peer myVersion fuel (i + 1) w t)

theorem failed_known {opened : Opened} (known : Known v)
    (cause : ∀ w, (replies i v).named = some w → ¬ Known w) (attempts : opened.attempts = i + 1)
    (ok : opened.ok = false) (stored : opened.myVersion = myVersion) :
    Failed replies myVersion i v opened :=
  ⟨fun w _ => cause w, by rw [if_pos known, attempts], ok, stored⟩

/-- A turn that gets a whole answer naming `w`. -/
theorem openLoop_replied {map : Nat × List UInt8} {s : TcpSocket} {word : List UInt8} {w : Nat}
    (idle : Idle t) (known : Known map.1) (mem : map ∈ protomap)
    (found : protomap.find? (·.1 = map.1) = some map) (reached : peer i map.1 = some s)
    (plain : 91 ∉ word ∧ 0 ∉ word) (replied : Replied s word w)
    (named : (replies i map.1).named = some w) :
    Turn peer replies myVersion fuel i map.1 (openLoop peer myVersion (fuel + 1) i map.1 t) := by
  obtain ⟨went, rcv, rest, log⟩ := handshake_replied idle mem plain replied
  unfold openLoop
  simp only [found, reached, went, if_true, rcv]
  by_cases small : w < 2 ^ 32
  · simp only [if_pos small]
    by_cases same : map.1 = w
    · subst same
      rw [if_pos rfl]
      exact .agreed _ ⟨known, named, rfl, rfl, rfl, rfl, rfl, map, mem, rfl, log⟩
    · rw [if_neg same]
      exact .next w _ known named (Ne.symm same) ⟨rest.msgLength, rest.msgConsumed⟩
  · simp only [if_neg small]
    have unknown : ∀ u, (replies i map.1).named = some u → ¬ Known u := by
      intro u hu ku
      obtain rfl : w = u := Option.some.inj (named.symm.trans hu)
      exact small (known_small ku)
    exact .failed _ (failed_known known unknown rfl rfl rfl)

theorem openLoop_turn (myVersion fuel i v : Nat)
    (speaks : ∀ i v, Speaks (peer i v) (replies i v)) (idle : Idle t) :
    Turn peer replies myVersion fuel i v (openLoop peer myVersion (fuel + 1) i v t) := by
  by_cases known : Known v
  · obtain ⟨map, mem, found, rfl⟩ := protomap_find? known
    have spoken := speaks i map.1
    cases reached : peer i map.1 with
    | none =>
      rw [reached] at spoken
      cases reply : replies i map.1 with
      | unreachable =>
        unfold openLoop
        simp only [found, reached]
        exact .failed _ (failed_known known (by simp [reply, Reply.named]) rfl rfl rfl)
      | _ => rw [reply] at spoken; exact spoken.elim
    | some s =>
      rw [reached] at spoken
      cases reply : replies i map.1 with
      | unreachable => rw [reply] at spoken; exact spoken.elim
      | silent =>
        rw [reply] at spoken
        have unsent := handshake_silent idle mem spoken
        unfold openLoop
        simp only [found, reached, unsent, Bool.false_eq_true, if_false]
        exact .failed _ (failed_known known (by simp [reply, Reply.named]) rfl rfl rfl)
      | accept w =>
        rw [reply] at spoken
        exact openLoop_replied idle known mem found reached (by decide) spoken
          (by simp [reply, Reply.named])
      | reject w =>
        rw [reply] at spoken
        exact openLoop_replied idle known mem found reached (by decide) spoken
          (by simp [reply, Reply.named])
  · unfold openLoop
    simp only [protomap_find?_none known]
    exact .failed _ ⟨fun w h => absurd h known, by rw [if_neg known]; rfl, rfl, rfl⟩

theorem tried_known {n w : Nat} (named : tried replies n i v = some w) : Known w := by
  induction n generalizing i v with
  | zero =>
    unfold tried at named
    split at named
    · rename_i known
      cases named
      exact known
    · cases named
  | succ n ih =>
    unfold tried at named
    split at named
    · obtain ⟨u, -, next⟩ := Option.bind_eq_some_iff.mp named
      split at next
      · cases next
      · exact ih next
    · cases named

theorem tried_before {n w : Nat} (named : tried replies (n + 1) i v = some w) :
    (tried replies n i v).isSome = true := by
  by_cases known : Known v
  · induction n generalizing i v with
    | zero => simp [tried, known]
    | succ n ih =>
      rw [tried, if_pos known] at named ⊢
      obtain ⟨u, reply, next⟩ := Option.bind_eq_some_iff.mp named
      split at next
      · cases next
      · rename_i other
        have further : Known u := by
          by_contra unknown
          rw [tried, if_neg unknown] at next
          cases next
        rw [reply, Option.bind_some, if_neg other]
        exact ih next further
  · rw [tried, if_neg known] at named
    cases named

theorem tried_below {m n w : Nat} (le : m ≤ n) (named : tried replies n i v = some w) :
    ∃ u, tried replies m i v = some u := by
  induction n generalizing w with
  | zero =>
    obtain rfl : m = 0 := Nat.le_zero.mp le
    exact ⟨w, named⟩
  | succ n ih =>
    by_cases last : m = n + 1
    · subst last
      exact ⟨w, named⟩
    · obtain ⟨u, earlier⟩ := Option.isSome_iff_exists.mp (tried_before named)
      exact ih (by omega) earlier

/-- The table has no more versions to try. -/
theorem tried_ends (advances : Advances replies v) : tried replies protomap.length 0 v = none := by
  cases named : tried replies protomap.length 0 v with
  | none => rfl
  | some w =>
    have each : ∀ m ∈ List.range (protomap.length + 1), ∃ u, tried replies m 0 v = some u := by
      intro m mem
      exact tried_below (Nat.le_of_lt_succ (List.mem_range.mp mem)) named
    have known : (List.range (protomap.length + 1)).map (fun m => (tried replies m 0 v).getD 0) ⊆
        protomap.map (·.1) := by
      intro u mem
      obtain ⟨m, inside, rfl⟩ := List.mem_map.mp mem
      obtain ⟨u, named⟩ := each m inside
      rw [named]
      exact tried_known named
    have distinct : ((List.range (protomap.length + 1)).map
        (fun m => (tried replies m 0 v).getD 0)).Nodup := by
      refine List.nodup_range.map_on fun m hm n hn same => ?_
      obtain ⟨u, first⟩ := each m hm
      obtain ⟨u', second⟩ := each n hn
      rw [first, second] at same
      obtain rfl : u = u' := same
      rcases Nat.lt_trichotomy m n with less | equal | greater
      · exact absurd second (advances m n u less first)
      · exact equal
      · exact absurd first (advances n m u greater second)
    have fewer := distinct.length_le_of_subset known
    rw [List.length_map, List.length_range, List.length_map] at fewer
    exact absurd fewer (Nat.not_succ_le_self _)

theorem openLoop_ends (speaks : ∀ i v, Speaks (peer i v) (replies i v)) {n : Nat}
    (idle : Idle t) (ends : tried replies n i v = none) :
    ∃ opened, openLoop peer myVersion (n + 1) i v t = some opened ∧ opened.attempts ≤ i + n := by
  induction n generalizing i v t with
  | zero =>
    have unknown : ¬ Known v := fun known => by simp [tried, known] at ends
    have turn := openLoop_turn myVersion 0 i v speaks idle
    generalize openLoop peer myVersion (0 + 1) i v t = result at turn
    cases turn with
    | agreed opened h => exact absurd h.known unknown
    | failed opened h =>
      exact ⟨opened, rfl, by have := h.attempts; rwa [if_neg unknown] at this⟩
    | next w t' known => exact absurd known unknown
  | succ n ih =>
    have turn := openLoop_turn myVersion (n + 1) i v speaks idle
    generalize openLoop peer myVersion (n + 1 + 1) i v t = result at turn
    cases turn with
    | agreed opened h => exact ⟨opened, rfl, by rw [h.attempts]; omega⟩
    | failed opened h =>
      refine ⟨opened, rfl, ?_⟩
      have := h.attempts
      split at this <;> omega
    | next w t' known named other idle' =>
      rw [tried, if_pos known, named, Option.bind_some, if_neg other] at ends
      obtain ⟨opened, result, attempts⟩ := ih idle' ends
      exact ⟨opened, result, by omega⟩

theorem openLoop_agreed (speaks : ∀ i v, Speaks (peer i v) (replies i v)) (idle : Idle t)
    {opened : Opened} (result : openLoop peer myVersion fuel i v t = some opened) :
    (opened.ok = true → ∃ j w, i ≤ j ∧ Agreed replies j w opened) ∧
      (opened.ok = false → opened.myVersion = myVersion) := by
  induction fuel generalizing i v t with
  | zero => simp [openLoop] at result
  | succ fuel ih =>
    have turn := openLoop_turn myVersion fuel i v speaks idle
    rw [result] at turn
    generalize same : some opened = result' at turn
    cases turn with
    | agreed _ h =>
      obtain rfl := Option.some.inj same
      exact ⟨fun _ => ⟨i, v, Nat.le_refl i, h⟩, fun no => by simp [h.ok] at no⟩
    | failed _ h =>
      obtain rfl := Option.some.inj same
      exact ⟨fun yes => by simp [h.ok] at yes, fun _ => h.stored⟩
    | next w t' _ _ _ idle' =>
      obtain ⟨agreed, stored⟩ := ih idle' same.symm
      refine ⟨?_, stored⟩
      intro ok
      obtain ⟨j, u, hj, h⟩ := agreed ok
      exact ⟨j, u, by omega, h⟩

/-- A loop that always has a version to try does not come back. -/
theorem openLoop_endless (speaks : ∀ i v, Speaks (peer i v) (replies i v)) (idle : Idle t)
    (endless : ∀ n, tried replies n i v ≠ none) : openLoop peer myVersion fuel i v t = none := by
  induction fuel generalizing i v t with
  | zero => rfl
  | succ fuel ih =>
    have turn := openLoop_turn myVersion fuel i v speaks idle
    generalize openLoop peer myVersion (fuel + 1) i v t = result at turn
    cases turn with
    | agreed opened h =>
      refine absurd ?_ (endless 1)
      rw [tried, if_pos h.known, h.named, Option.bind_some, if_pos rfl]
    | failed opened h =>
      refine absurd ?_ (endless 1)
      by_cases known : Known v
      · rw [tried, if_pos known]
        cases named : (replies i v).named with
        | none => rfl
        | some w => simp [tried, h.cause w known named]
      · rw [tried, if_neg known]
    | next w t' known named other idle' =>
      refine ih idle' fun n => ?_
      have later := endless (n + 1)
      rwa [tried, if_pos known, named, Option.bind_some, if_neg other] at later

theorem openLoop_succeeds (speaks : ∀ i v, Speaks (peer i v) (replies i v)) (idle : Idle t)
    (answers : ∀ i v, ∃ w, (replies i v).named = some w ∧ Known w) (known : Known v)
    {opened : Opened} (result : openLoop peer myVersion fuel i v t = some opened) :
    opened.ok = true := by
  induction fuel generalizing i v t with
  | zero => simp [openLoop] at result
  | succ fuel ih =>
    have turn := openLoop_turn myVersion fuel i v speaks idle
    rw [result] at turn
    generalize same : some opened = result' at turn
    obtain ⟨w, named, knows⟩ := answers i v
    cases turn with
    | agreed _ h =>
      obtain rfl := Option.some.inj same
      exact h.ok
    | failed _ h => exact absurd knows (h.cause w known named)
    | next u t' _ named' _ idle' =>
      obtain rfl : w = u := Option.some.inj (named.symm.trans named')
      exact ih idle' knows same.symm

theorem close_idle (t : ProtoBase) : Idle t.close := by
  unfold close
  split <;> exact ⟨rfl, rfl⟩

theorem firstVersion_known (stored : myVersion = 0 ∨ Known myVersion) :
    Known (firstVersion myVersion) := by
  unfold firstVersion
  by_cases unset : myVersion = 0
  · rw [if_pos unset]
    decide
  · rw [if_neg unset]
    exact stored.resolve_left unset

theorem start_idle (idle : t.isOpen = false → Idle t) : Idle (if t.isOpen then t.close else t) := by
  cases h : t.isOpen with
  | true => exact close_idle t
  | false => simpa using idle h

/-- The static variable only takes versions of the table. -/
theorem openConnection_stored (speaks : ∀ i v, Speaks (peer i v) (replies i v))
    (stored : myVersion = 0 ∨ Known myVersion) (idle : t.isOpen = false → Idle t)
    {opened : Opened} (result : openConnection peer myVersion fuel t = some opened) :
    opened.myVersion = 0 ∨ Known opened.myVersion := by
  obtain ⟨agreed, failed⟩ := openLoop_agreed speaks (start_idle idle) result
  cases ok : opened.ok with
  | true =>
    obtain ⟨j, w, -, h⟩ := agreed ok
    rw [h.myVersion]
    exact .inr h.known
  | false =>
    rw [failed ok]
    exact stored

/-- A backend that speaks one version names it in every answer. -/
def fixedReplies (V : Nat) : Nat → Nat → Reply :=
  fun _ v => if v = V then .accept V else .reject V

theorem fixedReplies_named (V i v : Nat) : (fixedReplies V i v).named = some V := by
  unfold fixedReplies
  split <;> rfl

theorem fixedReplies_tried (V n i v : Nat) : tried (fixedReplies V) (n + 2) i v = none := by
  unfold tried
  split
  · rw [fixedReplies_named, Option.bind_some]
    split
    · rfl
    · unfold tried
      split
      · rw [fixedReplies_named, Option.bind_some, if_pos rfl]
      · rfl
  · rfl

theorem fixedReplies_advances (V v : Nat) : Advances (fixedReplies V) v := by
  intro m n w before first second
  have late : n < 2 := by
    by_contra late
    obtain ⟨k, rfl⟩ := Nat.exists_eq_add_of_le' (Nat.le_of_not_lt late)
    rw [fixedReplies_tried] at second
    cases second
  obtain ⟨rfl, rfl⟩ : m = 0 ∧ n = 1 := by omega
  by_cases known : Known v
  · simp only [tried, if_pos known] at first
    rw [tried, if_pos known] at second
    obtain rfl := Option.some.inj first
    rw [fixedReplies_named, Option.bind_some] at second
    by_cases same : V = v
    · rw [if_pos same] at second
      cases second
    · rw [if_neg same] at second
      unfold tried at second
      split at second
      · exact same (Option.some.inj second)
      · cases second
  · simp only [tried, if_neg known, reduceCtorEq] at first

theorem openConnection_negotiates (peer : Peer) (replies : Nat → Nat → Reply)
    (speaks : ∀ i v, Speaks (peer i v) (replies i v)) (myVersion : Nat)
    (stored : myVersion = 0 ∨ Known myVersion) (t : ProtoBase) (idle : t.isOpen = false → Idle t) :
    (Advances replies (firstVersion myVersion) →
      ∃ opened, openConnection peer myVersion (protomap.length + 1) t = some opened ∧
        opened.attempts ≤ protomap.length) ∧
    (∀ fuel opened, openConnection peer myVersion fuel t = some opened → opened.ok = true →
      let v := opened.proto.protoVersion
      Known v ∧ opened.proto.Announces v ∧ (replies (opened.attempts - 1) v).named = some v) ∧
    ∀ V, replies = fixedReplies V →
      ∃ opened, openConnection peer myVersion 3 t = some opened ∧ (opened.ok = true ↔ Known V) := by
  have start := start_idle idle
  refine ⟨?_, ?_, ?_⟩
  · intro advances
    obtain ⟨opened, result, attempts⟩ := openLoop_ends speaks start (tried_ends advances)
    exact ⟨opened, result, by rwa [Nat.zero_add] at attempts⟩
  · intro fuel opened result ok
    obtain ⟨j, w, -, agreed⟩ := (openLoop_agreed speaks start result).1 ok
    rw [agreed.protoVersion, agreed.attempts]
    exact ⟨agreed.known, agreed.announced, agreed.named⟩
  · rintro V rfl
    obtain ⟨opened, result, -⟩ := openLoop_ends speaks start
      (fixedReplies_tried V 0 0 (firstVersion myVersion))
    refine ⟨opened, result, ?_⟩
    constructor
    · intro ok
      obtain ⟨j, w, -, agreed⟩ := (openLoop_agreed speaks start result).1 ok
      rw [Option.some.inj ((fixedReplies_named V j w).symm.trans agreed.named)]
      exact agreed.known
    · intro known
      exact openLoop_succeeds speaks start
        (fun i v => ⟨V, fixedReplies_named V i v, known⟩) (firstVersion_known stored) result

end Loop

/-- A backend that sends its answers whole. -/
def answering (replies : Nat → Nat → Reply) : Peer := fun i v =>
  let answer := fun (word : List UInt8) (version : Nat) =>
    let text := joinFields separator [word, decimal version]
    some (TcpSocket.connected (header text.length ++ text) (fun _ => .ready 99) fun _ => true)
  match replies i v with
  | .unreachable => none
  | .silent => some (TcpSocket.connected [] (fun _ => .timeout) fun _ => true)
  | .accept version => answer (ascii "ACCEPT") version
  | .reject version => answer (ascii "REJECT") version

theorem answering_speaks {replies : Nat → Nat → Reply}
    (small : ∀ i v w, (replies i v).named = some w → w = 90 ∨ w = 91) :
    ∀ i v, Speaks (answering replies i v) (replies i v) := by
  intro i v
  have whole : ∀ word ∈ [ascii "ACCEPT", ascii "REJECT"], ∀ w ∈ [90, 91],
      let text := joinFields separator [word, decimal w]
      Replied (TcpSocket.connected (header text.length ++ text) (fun _ => .ready 99) fun _ => true)
        word w := by
    intro word hword w hw
    refine ⟨rfl, rfl, header _, ?_, rfl, fun _ => ⟨99, rfl⟩, List.prefix_rfl⟩
    intro junk
    simp only [List.mem_cons, List.not_mem_nil, or_false] at hword hw
    rcases hword with rfl | rfl <;> rcases hw with rfl | rfl <;> exact ⟨rfl, 13, rfl, rfl⟩
  have named := small i v
  unfold answering
  cases reply : replies i v with
  | unreachable => trivial
  | silent => exact .inl (by decide)
  | accept w => exact whole _ (by simp) w (by simpa [reply, Reply.named] using named)
  | reject w => exact whole _ (by simp) w (by simpa [reply, Reply.named] using named)

def unconnected : ProtoBase := { connected (.connected [] (fun _ => .timeout) fun _ => true) 0
  (fun _ => []) with isOpen := false }

theorem openConnection_negotiates_fixed :
    (∃ opened, openConnection (answering (fixedReplies 90)) 0 17 unconnected = some opened ∧
      opened.attempts ≤ 16) ∧
    ∃ opened, openConnection (answering (fixedReplies 90)) 0 3 unconnected = some opened ∧
      (opened.ok = true ↔ Known 90) := by
  have speaks : ∀ i v, Speaks (answering (fixedReplies 90) i v) (fixedReplies 90 i v) := by
    apply answering_speaks
    intro i v w named
    rw [fixedReplies_named] at named
    exact .inl (Option.some.inj named).symm
  obtain ⟨bounded, -, fixed⟩ := openConnection_negotiates _ _ speaks 0 (.inl rfl) unconnected
    fun _ => ⟨rfl, rfl⟩
  exact ⟨bounded (fixedReplies_advances 90 91), fixed 90 rfl⟩

/-- The backend turns down each of two versions with the other. -/
def undecided : Nat → Nat → Reply := fun _ v => if v = 91 then .reject 90 else .reject 91

theorem undecided_tried (n i v : Nat) (v_of : v = 90 ∨ v = 91) :
    tried undecided n i v ≠ none := by
  have known : Known v := by
    rcases v_of with rfl | rfl <;> decide
  induction n generalizing i v with
  | zero => simp [tried, known]
  | succ n ih =>
    rw [tried, if_pos known]
    rcases v_of with rfl | rfl
    · exact ih (i + 1) 91 (.inr rfl) (by decide)
    · exact ih (i + 1) 90 (.inl rfl) (by decide)

/-- A backend can keep the loop going for ever, and an agreement may be a rejection. -/
theorem not_always_negotiates :
    (¬ ∀ (peer : Peer) (replies : Nat → Nat → Reply), (∀ i v, Speaks (peer i v) (replies i v)) →
      ∃ fuel opened, openConnection peer 0 fuel unconnected = some opened) ∧
    ¬ ∀ (peer : Peer) (replies : Nat → Nat → Reply), (∀ i v, Speaks (peer i v) (replies i v)) →
      ∀ fuel opened, openConnection peer 0 fuel unconnected = some opened → opened.ok = true →
        ∃ i v, replies i v = .accept opened.proto.protoVersion := by
  have start : Idle unconnected := ⟨rfl, rfl⟩
  constructor
  · intro claim
    have speaks : ∀ i v, Speaks (answering undecided i v) (undecided i v) := by
      apply answering_speaks
      intro i v w named
      unfold undecided at named
      split at named
      · exact .inl (Option.some.inj named).symm
      · exact .inr (Option.some.inj named).symm
    obtain ⟨fuel, opened, result⟩ := claim _ undecided speaks
    have never : openConnection (answering undecided) 0 fuel unconnected = none :=
      openLoop_endless speaks start fun n => undecided_tried n 0 91 (.inr rfl)
    exact absurd (result.symm.trans never) (by simp)
  · intro claim
    have speaks : ∀ i v, Speaks (answering (fun _ _ => .reject 91) i v) (.reject 91) := by
      apply answering_speaks
      intro i v w named
      exact .inr (Option.some.inj named).symm
    obtain ⟨opened, result, -⟩ := openLoop_ends (v := 91) (n := 1) speaks start rfl
    have ok := openLoop_succeeds speaks start (fun _ _ => ⟨91, rfl, by decide⟩) (by decide) result
    obtain ⟨i, v, accepted⟩ := claim _ _ speaks 2 opened result ok
    cases accepted

end ProtoBase

end CppMyth
