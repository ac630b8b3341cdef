import EasyLua.Foundation.TaggedWord
import EasyLua.Service.Address

/-!
# The type and the size of a message

`Message.sz` keeps the type of a message in its high eight bits. The three senders of
`thisVM.cpp` put it there, and `getInternalMsgNonBlock` takes the word apart again. A size
is a `lua_Integer` with 64 bits and a sign, and a `size_t` has 32 or 64 bits. Whom a message
reaches is the matter of other modules; here is what stands in it.
-/

namespace EasyLua

namespace MessageSize

/-- The two widths of `size_t`. -/
inductive SizeT
  | bits32
  | bits64

/-- `sizeof(size_t)`. -/
def SizeT.sizeof : SizeT → Nat
  | .bits32 => 4
  | .bits64 => 8

def SizeT.bits (width : SizeT) : Nat := width.sizeof * 8

def MESSAGE_TYPE_MASK (width : SizeT) : BitVec width.bits := BitVec.allOnes width.bits >>> 8

def MESSAGE_TYPE_SHIFT (width : SizeT) : Nat := (width.sizeof - 1) * 8

def MSG_TYPE_LUA : Nat := 1

def MSG_TYPE_TEXT : Nat := 2

/-- `Message`, for either width of `size_t`. -/
structure Message (width : SizeT) where
  sourceServiceName : String
  sourceVm : UInt32
  session : Int32
  data : Option (List UInt8)
  sz : BitVec width.bits

/-- Why a sender raises an error. -/
inductive Failure
  | argument (arg : Nat) (message : String)
  /-- `interror` of the auxiliary library. -/
  | notInteger (arg : Nat)
  /-- The error of `checkInstance`. -/
  | notInstance

/-- The argument `SELF` of a member function of `cThisVM`. -/
inductive Self (Service : Type)
  | thisVM (vm : Address.Vm Service)
  | otherUserdata
  | other

/-- A call of a sender, with the `shared_ptr` of the buffer. -/
inductive Call (Value : Type)
  | sendByVmId (charMsg : Option (List UInt8)) (SIZE : Value)
  /-- With the results of `luaseri_pack`. -/
  | iAmReady (pBuff : Option (List UInt8)) (len : Int64)
  | sendByServiceName (charMsg : Option (List UInt8)) (SIZE : Value)

/-- What `getInternalMsgNonBlock` pushes. -/
structure Received where
  sourceServiceName : String
  sourceVm : UInt32
  session : Int32
  type : Int32
  data : List UInt8
  sz : Int64

section Senders

variable {Service Value : Type} (width : SizeT) (serviceName : Service → String)
  (tointegerx : Value → Option Int64)

/-- `size | ((size_t)type << MESSAGE_TYPE_SHIFT)` as the last argument of `Message`. The
operands are converted to the wider type, which has 64 bits, and the result to `size_t`. -/
def typedSize (type : Nat) (size : Int64) : BitVec width.bits :=
  (size.toBitVec |||
    (BitVec.ofNat width.bits type <<< MESSAGE_TYPE_SHIFT width).setWidth 64).setWidth width.bits

/-- `checkInstance(L, SELF, THIS_CLASS)`. -/
def checkInstance : Self Service → Except Failure (Address.Vm Service)
  | .thisVM vm => .ok vm
  | .otherUserdata => .error .notInstance
  | .other => .error .notInstance

/-- `luaL_argcheck(L, self, SELF, "invalid thisVM")`. -/
def argcheckSelf : Self Service → Except Failure Unit
  | .thisVM _ => .ok ()
  | .otherUserdata => .ok ()
  | .other => .error (.argument 1 "invalid thisVM")

/-- `luaL_checkinteger`, where `tointegerx` is the conversion of Lua. -/
def luaL_checkinteger (arg : Nat) (value : Value) : Except Failure Int64 :=
  match tointegerx value with
  | some d => .ok d
  | none => .error (.notInteger arg)

/-- The lines that `sendByVmId` and `sendByServiceName` share, up to the message. -/
def sendLua (self : Self Service) (charMsg : Option (List UInt8)) (SIZE : Value) :
    Except Failure (Message width) := do
  let self ← checkInstance self
  let size ← luaL_checkinteger tointegerx 4 SIZE
  return {
    sourceServiceName := serviceName self.service
    sourceVm := self.handle_
    session := Address.newSession self.sessionId
    data := charMsg
    sz := typedSize width MSG_TYPE_LUA size }

/-- The message of `sendByVmId`. -/
def sendByVmId : Self Service → Option (List UInt8) → Value → Except Failure (Message width) :=
  sendLua width serviceName tointegerx

/-- The message that `iAmReady` pushes to every other service. -/
def iAmReady (self : Self Service) (pBuff : Option (List UInt8)) (len : Int64) :
    Except Failure (Message width) := do
  argcheckSelf self
  let self ← checkInstance self
  return {
    sourceServiceName := serviceName self.service
    sourceVm := self.handle_
    session := 0
    data := pBuff
    sz := typedSize width MSG_TYPE_TEXT len }

/-- The message of `sendByServiceName`. -/
def sendByServiceName : Self Service → Option (List UInt8) → Value →
    Except Failure (Message width) :=
  sendLua width serviceName tointegerx

/-- The message of a call. -/
def message (self : Self Service) : Call Value → Except Failure (Message width)
  | .sendByVmId charMsg SIZE => sendByVmId width serviceName tointegerx self charMsg SIZE
  | .iAmReady pBuff len => iAmReady width serviceName self pBuff len
  | .sendByServiceName charMsg SIZE =>
      sendByServiceName width serviceName tointegerx self charMsg SIZE

end Senders

section Receiver

variable {width : SizeT}

/-- `int type = msg.sz >> MESSAGE_TYPE_SHIFT`. -/
def Message.type (msg : Message width) : Int32 :=
  Int32.ofBitVec ((msg.sz >>> MESSAGE_TYPE_SHIFT width).setWidth 32)

/-- `msg.sz & MESSAGE_TYPE_MASK`, as `lua_pushinteger` gets it. -/
def Message.size (msg : Message width) : Int64 :=
  Int64.ofBitVec ((msg.sz &&& MESSAGE_TYPE_MASK width).setWidth 64)

/-- `getInternalMsgNonBlock` with the message that `popMsg` returned. -/
def getInternalMsgNonBlock (msg : Message width) : Option Received :=
  match msg.data with
  | none => none
  | some data => some {
      sourceServiceName := msg.sourceServiceName
      sourceVm := msg.sourceVm
      session := msg.session
      type := msg.type
      data := data
      sz := msg.size }

end Receiver

/-- The type that a sender gives to its messages. -/
def Call.type {Value : Type} : Call Value → Nat
  | .sendByVmId _ _ => MSG_TYPE_LUA
  | .iAmReady _ _ => MSG_TYPE_TEXT
  | .sendByServiceName _ _ => MSG_TYPE_LUA

/-- The size that a sender accepts. -/
def Call.size {Value : Type} (tointegerx : Value → Option Int64) : Call Value → Option Int64
  | .sendByVmId _ SIZE => tointegerx SIZE
  | .iAmReady _ len => some len
  | .sendByServiceName _ SIZE => tointegerx SIZE

/-- The sender raised an error, or `getInternalMsgNonBlock` pushes its type and its size for the
message, whatever the buffer of that holds. -/
def Survives {Service Value : Type} (width : SizeT) (serviceName : Service → String)
    (tointegerx : Value → Option Int64) (self : Self Service) (call : Call Value) : Prop :=
  (∃ failure, message width serviceName tointegerx self call = .error failure) ∨
    ∃ msg size, message width serviceName tointegerx self call = .ok msg ∧
      call.size tointegerx = some size ∧
      ∀ data, ∃ received, getInternalMsgNonBlock { msg with data := some data } = some received ∧
        received.type.toInt = call.type ∧ received.sz = size

/-- The size is not negative and leaves the high eight bits of a `size_t` free. -/
def InRange (width : SizeT) (size : Int64) : Prop :=
  0 ≤ size.toInt ∧ size.toInt < 2 ^ (width.bits - 8)

/-! ## The word of a message -/

section Word

variable (width : SizeT)

theorem MESSAGE_TYPE_SHIFT_eq : MESSAGE_TYPE_SHIFT width = width.bits - 8 := by
  cases width <;> rfl

theorem bits_le : width.bits ≤ 64 := by cases width <;> decide

theorem le_bits : 32 ≤ width.bits := by cases width <;> decide

/-- The conversions change neither operand's bits that a `size_t` has. -/
theorem typedSize_eq (type : Nat) (size : Int64) :
    typedSize width type size =
      TaggedWord.pack 8 (size.toBitVec.setWidth width.bits) (BitVec.ofNat width.bits type) := by
  unfold typedSize TaggedWord.pack
  rw [MESSAGE_TYPE_SHIFT_eq, BitVec.setWidth_or,
    BitVec.setWidth_setWidth_of_le _ (bits_le width), BitVec.setWidth_eq]

variable {width}

theorem Message.type_eq (msg : Message width) :
    msg.type = Int32.ofBitVec ((TaggedWord.tag 8 msg.sz).setWidth 32) := by
  unfold Message.type TaggedWord.tag
  rw [MESSAGE_TYPE_SHIFT_eq]

/-- A size that is received is not negative and fits beside a type. -/
theorem Message.size_toInt (msg : Message width) :
    msg.size.toInt = (TaggedWord.payload 8 msg.sz).toNat := by
  have small := TaggedWord.payload_lt 8 msg.sz
  have bound : 2 ^ (width.bits - 8) ≤ 2 ^ 56 := by
    apply Nat.pow_le_pow_right (by decide)
    have narrow := bits_le width
    omega
  have kept : ((TaggedWord.payload 8 msg.sz).setWidth 64).toNat =
      (TaggedWord.payload 8 msg.sz).toNat := by
    rw [BitVec.toNat_setWidth]
    apply Nat.mod_eq_of_lt
    omega
  have positive : 2 * ((TaggedWord.payload 8 msg.sz).setWidth 64).toNat < 2 ^ 64 := by
    rw [kept]
    omega
  calc msg.size.toInt = ((TaggedWord.payload 8 msg.sz).setWidth 64).toInt := rfl
    _ = ((TaggedWord.payload 8 msg.sz).setWidth 64).toNat := BitVec.toInt_eq_toNat_of_lt positive
    _ = (TaggedWord.payload 8 msg.sz).toNat := by rw [kept]

theorem Message.size_inRange (msg : Message width) : InRange width msg.size := by
  have small := TaggedWord.payload_lt 8 msg.sz
  unfold InRange
  rw [msg.size_toInt]
  constructor
  · exact Int.natCast_nonneg _
  · exact_mod_cast small

/-- A size in range stands in the word as it is. -/
theorem InRange.toNat {size : Int64} (inRange : InRange width size) :
    ((size.toBitVec.setWidth width.bits).toNat : Int) = size.toInt := by
  obtain ⟨positive, small⟩ := inRange
  have unsigned : (size.toBitVec.toNat : Int) = size.toInt := by
    change (size.toBitVec.toNat : Int) = size.toBitVec.toInt
    have same := BitVec.toInt_eq_toNat_cond size.toBitVec
    have nonneg : 0 ≤ size.toBitVec.toInt := positive
    have bound := size.toBitVec.isLt
    split at same
    · exact same.symm
    · omega
  have fits : size.toBitVec.toNat < 2 ^ width.bits := by
    have below : size.toBitVec.toNat < 2 ^ (width.bits - 8) := by
      rw [← unsigned] at small
      exact_mod_cast small
    exact below.trans_le (Nat.pow_le_pow_right (by decide) (Nat.sub_le _ _))
  rw [BitVec.toNat_setWidth, Nat.mod_eq_of_lt fits, unsigned]

/-- The size that is received is the one that was sent exactly when it is in range. -/
theorem size_iff (msg : Message width) {type : Nat} {size : Int64}
    (sent : msg.sz = typedSize width type size) : msg.size = size ↔ InRange width size := by
  constructor
  · intro same
    rw [← same]
    exact msg.size_inRange
  · intro inRange
    have stands := inRange.toNat
    apply Int64.toInt_inj.mp
    have small : (size.toBitVec.setWidth width.bits).toNat < 2 ^ (width.bits - 8) := by
      have below := inRange.2
      rw [← stands] at below
      exact_mod_cast below
    rw [msg.size_toInt, sent, typedSize_eq, TaggedWord.payload_pack_of_lt small, stands]

/-- With a size in range the type that is received is the one that was sent. -/
theorem type_of_inRange (msg : Message width) {type : Nat} {size : Int64}
    (sent : msg.sz = typedSize width type size) (byte : type < 2 ^ 8)
    (inRange : InRange width size) : msg.type.toInt = type := by
  have wide : 2 ^ 32 ≤ 2 ^ width.bits := Nat.pow_le_pow_right (by decide) (le_bits width)
  have mark : (BitVec.ofNat width.bits type).toNat = type := by
    rw [BitVec.toNat_ofNat]
    apply Nat.mod_eq_of_lt
    omega
  have small : (size.toBitVec.setWidth width.bits).toNat < 2 ^ (width.bits - 8) := by
    have below := inRange.2
    rw [← inRange.toNat] at below
    exact_mod_cast below
  have enough : 8 ≤ width.bits := (by decide : 8 ≤ 32).trans (le_bits width)
  have tag := TaggedWord.tag_pack_of_lt (by rw [mark]; exact byte) enough small
  rw [msg.type_eq, sent, typedSize_eq, tag]
  have low : ((BitVec.ofNat width.bits type).setWidth 32).toNat = type := by
    rw [BitVec.toNat_setWidth, mark]
    apply Nat.mod_eq_of_lt
    omega
  calc ((BitVec.ofNat width.bits type).setWidth 32).toInt
      = ((BitVec.ofNat width.bits type).setWidth 32).toNat := by
        apply BitVec.toInt_eq_toNat_of_lt
        rw [low]
        omega
    _ = type := by rw [low]

end Word

/-! ## The senders -/

section Calls

variable {Service Value : Type} (width : SizeT) (serviceName : Service → String)
  (tointegerx : Value → Option Int64) (self : Self Service)

/-- Neither check of a sender fails. -/
def Accepted (call : Call Value) : Prop :=
  (∃ vm, self = .thisVM vm) ∧ ∃ size, call.size tointegerx = some size

theorem Call.type_lt (call : Call Value) : call.type < 2 ^ 8 := by
  unfold Call.type MSG_TYPE_LUA MSG_TYPE_TEXT
  cases call <;> simp

theorem sendLua_cases (vm : Address.Vm Service) (charMsg : Option (List UInt8)) (SIZE : Value) :
    (tointegerx SIZE = none ∧ ∃ failure,
      sendLua width serviceName tointegerx (.thisVM vm) charMsg SIZE = .error failure) ∨
    ∃ msg size, tointegerx SIZE = some size ∧
      sendLua width serviceName tointegerx (.thisVM vm) charMsg SIZE = .ok msg ∧
      msg.sz = typedSize width MSG_TYPE_LUA size := by
  unfold sendLua luaL_checkinteger
  cases tointegerx SIZE with
  | none => exact Or.inl ⟨rfl, .notInteger 4, rfl⟩
  | some size => exact Or.inr ⟨_, size, rfl, rfl, rfl⟩

/-- A sender either fails in a check, or its message has the typed size. -/
theorem message_cases (call : Call Value) :
    (¬ Accepted tointegerx self call ∧
      ∃ failure, message width serviceName tointegerx self call = .error failure) ∨
    ∃ vm msg size, self = .thisVM vm ∧ call.size tointegerx = some size ∧
      message width serviceName tointegerx self call = .ok msg ∧
      msg.sz = typedSize width call.type size := by
  have unsized (none_ : call.size tointegerx = none) : ¬ Accepted tointegerx self call := by
    intro accepted
    obtain ⟨size, some_⟩ := accepted.2
    cases none_.symm.trans some_
  have rejected (stranger : ∀ vm, self ≠ .thisVM vm) : ¬ Accepted tointegerx self call :=
    fun accepted => accepted.1.elim stranger
  cases self with
  | thisVM vm =>
      cases call with
      | sendByVmId charMsg SIZE =>
          rcases sendLua_cases width serviceName tointegerx vm charMsg SIZE with
            ⟨none_, raised⟩ | ⟨msg, size, some_, sent, word⟩
          · exact Or.inl ⟨unsized none_, raised⟩
          · exact Or.inr ⟨vm, msg, size, rfl, some_, sent, word⟩
      | iAmReady pBuff len => exact Or.inr ⟨vm, _, len, rfl, rfl, rfl, rfl⟩
      | sendByServiceName charMsg SIZE =>
          rcases sendLua_cases width serviceName tointegerx vm charMsg SIZE with
            ⟨none_, raised⟩ | ⟨msg, size, some_, sent, word⟩
          · exact Or.inl ⟨unsized none_, raised⟩
          · exact Or.inr ⟨vm, msg, size, rfl, some_, sent, word⟩
  | otherUserdata =>
      refine Or.inl ⟨rejected ?_, ?_⟩
      · intro vm same
        cases same
      · cases call <;> exact ⟨_, rfl⟩
  | other =>
      refine Or.inl ⟨rejected ?_, ?_⟩
      · intro vm same
        cases same
      · cases call <;> exact ⟨_, rfl⟩

/-- **Type and size survive the size field of a message exactly when a check of the sender
fails, or the size is not negative and leaves the high eight bits free.** -/
theorem survives_iff {Service Value : Type} (width : SizeT) (serviceName : Service → String)
    (tointegerx : Value → Option Int64) (self : Self Service) (call : Call Value) :
    Survives width serviceName tointegerx self call ↔
      ¬ Accepted tointegerx self call ∨
        ∃ size, call.size tointegerx = some size ∧ InRange width size := by
  rcases message_cases width serviceName tointegerx self call with
    ⟨refused, raised⟩ | ⟨vm, msg, size, is, accepts, sent, word⟩
  · exact ⟨fun _ => Or.inl refused, fun _ => Or.inl raised⟩
  · have accepted : Accepted tointegerx self call := ⟨⟨vm, is⟩, size, accepts⟩
    constructor
    · rintro (⟨failure, raised⟩ | ⟨other, another, sent', accepts', receives⟩)
      · cases sent.symm.trans raised
      · cases sent.symm.trans sent'
        cases accepts.symm.trans accepts'
        obtain ⟨received, got, _, same⟩ := receives []
        cases Option.some.inj got
        exact Or.inr ⟨size, accepts, (size_iff msg word).mp same⟩
    · rintro (refused | ⟨other, accepts', inRange⟩)
      · exact absurd accepted refused
      · cases accepts.symm.trans accepts'
        have type := type_of_inRange msg word call.type_lt inRange
        have same := (size_iff msg word).mpr inRange
        exact Or.inr ⟨msg, size, sent, accepts, fun data => ⟨_, rfl, type, same⟩⟩

/-- With a `size_t` of 64 bits `sendByVmId` makes the message that goes to the queues. -/
theorem sendByVmId_luaMessage (vm : Address.Vm Service) (charMsg : Option (List UInt8))
    {SIZE : Value} {size : Int64} (given : tointegerx SIZE = some size) :
    (sendByVmId .bits64 serviceName tointegerx (.thisVM vm) charMsg SIZE).map (fun msg =>
        ({ sourceServiceName := msg.sourceServiceName, sourceVm := msg.sourceVm,
           session := msg.session, data := msg.data, sz := UInt64.ofBitVec msg.sz } :
          EasyLua.Message)) =
      .ok (Address.luaMessage (serviceName vm.service) vm charMsg size).msg := by
  have word : UInt64.ofBitVec (typedSize .bits64 MSG_TYPE_LUA size) =
      size.toUInt64 ||| Address.MSG_TYPE_LUA <<< Address.MESSAGE_TYPE_SHIFT := by
    rw [typedSize_eq]
    rfl
  simp only [sendByVmId, sendLua, luaL_checkinteger, given]
  exact congrArg (fun sz => Except.ok
    ({ sourceServiceName := serviceName vm.service, sourceVm := vm.handle_,
       session := Address.newSession vm.sessionId, data := charMsg, sz } : EasyLua.Message)) word

end Calls

/-- **A size of -1 becomes type 255**: all bits of the word are set. -/
theorem not_survives_negative :
    ¬ Survives .bits64 (fun _ : Unit => "s") some
      (.thisVM { service := (), handle_ := 1, sessionId := 0, context := {}, alive := true,
                 callbacks := [] })
      (.sendByServiceName (some [0]) (-1)) := by
  rintro (⟨failure, raised⟩ | ⟨msg, size, sent, accepts, receives⟩)
  · cases raised
  · cases sent
    obtain ⟨received, got, type, _⟩ := receives [0]
    cases Option.some.inj got
    exact absurd type (by decide)

end MessageSize

end EasyLua
