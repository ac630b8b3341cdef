import EasyLua.Socket.AddressArgument
import Mathlib.Data.List.TakeWhile

/-!
# The address that a socket was bound to

`bind` makes a socket address of a table, and `getsockname` makes a table of the socket address
that the system reports. When it reports the one that was bound, the table has the fields of the
first one: the host as well if it is a dotted quad.
-/

namespace EasyLua

namespace Socket

open ByteMemory

/-! ## Octets -/

/-- The number of four octets, the first one highest. -/
def quad (a b c d : UInt8) : UInt32 :=
  a.toUInt32 <<< 24 ||| b.toUInt32 <<< 16 ||| c.toUInt32 <<< 8 ||| d.toUInt32

/-- In network order the first octet is the lowest. -/
theorem htonl_quad (a b c d : UInt8) : htonl (quad a b c d) = quad d c b a := by
  apply UInt32.toBitVec_inj.mp
  apply BitVec.eq_of_getLsbD_eq
  intro i inside
  simp only [htonl, quad, UInt32.toBitVec_or, UInt32.toBitVec_and, UInt32.toBitVec_shiftLeft,
    UInt32.toBitVec_shiftRight]
  interval_cases i <;> simp

/-- The bytes of a number. -/
theorem encode_toNat (number : UInt32) :
    LittleEndian.encode 4 number.toNat =
      [number.toUInt8, (number >>> 8).toUInt8, (number >>> 16).toUInt8,
        (number >>> 24).toUInt8] := by
  simp only [LittleEndian.encode, List.cons.injEq, and_true]
  refine ⟨?_, ?_, ?_, ?_⟩
  · apply UInt8.toNat_inj.mp
    simp
  · apply UInt8.toNat_inj.mp
    simp [Nat.shiftRight_eq_div_pow]
  · apply UInt8.toNat_inj.mp
    simp [Nat.shiftRight_eq_div_pow, Nat.div_div_eq_div_mul]
  · apply UInt8.toNat_inj.mp
    simp [Nat.shiftRight_eq_div_pow, Nat.div_div_eq_div_mul]

/-- The octets of an address in memory. -/
theorem encode_htonl (a b c d : UInt8) :
    LittleEndian.encode 4 (htonl (quad a b c d)).toNat = [a, b, c, d] := by
  rw [htonl_quad, encode_toNat]
  simp only [List.cons.injEq, and_true, quad]
  refine ⟨?_, ?_, ?_, ?_⟩ <;>
  · apply UInt8.toBitVec_inj.mp
    apply BitVec.eq_of_getLsbD_eq
    intro i inside
    simp only [UInt32.toBitVec_or, UInt32.toBitVec_shiftLeft, UInt32.toBitVec_shiftRight,
      UInt32.toBitVec_toUInt8]
    interval_cases i <;> simp

/-- How a numeric host is written. -/
def quadText (a b c d : UInt8) : List UInt8 :=
  Decimal.text a.toNat ++ 46 :: Decimal.text b.toNat ++ 46 :: Decimal.text c.toNat ++
    46 :: Decimal.text d.toNat

/-- A digit is neither the end of a string nor a bracket. -/
theorem plain_text {n : Nat} {byte : UInt8} (member : byte ∈ Decimal.text n) :
    byte ≠ 0 ∧ byte ≠ 60 := by
  have isDigit := Decimal.isDigit_text member
  refine ⟨?_, ?_⟩
  · rintro rfl
    cases isDigit
  · rintro rfl
    cases isDigit

theorem plain_quadText {a b c d byte : UInt8} (member : byte ∈ quadText a b c d) :
    byte ≠ 0 ∧ byte ≠ 60 := by
  have dot : (46 : UInt8) ≠ 0 ∧ (46 : UInt8) ≠ 60 := by decide
  simp only [quadText, List.mem_append, List.mem_cons] at member
  rcases member with ((first | rfl | second) | rfl | third) | rfl | fourth
  · exact plain_text first
  · exact dot
  · exact plain_text second
  · exact dot
  · exact plain_text third
  · exact dot
  · exact plain_text fourth

/-- A numeric host has no terminator in it. -/
theorem cString_quadText (a b c d : UInt8) : cString (quadText a b c d) = quadText a b c d := by
  unfold cString
  rw [List.takeWhile_eq_self_iff]
  intro byte member
  simp [(plain_quadText member).1]

theorem ne_broadcast {name : List UInt8} (plain : (60 : UInt8) ∉ name) :
    name ≠ "<broadcast>".toUTF8.toList := by
  intro same
  apply plain
  rw [same, toList_eq]
  decide

theorem quadText_ne_nil (a b c d : UInt8) : quadText a b c d ≠ [] := by
  simp [quadText]

/-! ## What is in an address -/

/-- `sin6_scope_id`. -/
def sin6_scope_id (addr : SockAddr) : UInt32 := .ofNat (load addr 24 4)

/-- `sizeof(sock_addr_t)`, that of its `sockaddr_storage`. -/
def sizeof_sock_addr_t : Nat := 128

/-- The fields that `makesockaddr` reads. -/
def sockaddr (addr : SockAddr) : Sockaddr where
  sa_family := sa_family addr
  sin_port := sin_port addr
  sin6_flowinfo := sin6_flowinfo addr
  sin6_scope_id := sin6_scope_id addr
  sa_data := read addr 2 (sizeof_sock_addr_t - 2)

/-- The octets of `sin_addr`. -/
def sin_addr (addr : Sockaddr) : List UInt8 := (addr.sa_data.drop 2).take 4

/-- The octets of `sin6_addr`. -/
def sin6_addr (addr : Sockaddr) : List UInt8 := (addr.sa_data.drop 6).take 16

section Fields

variable (addr : SockAddr)

@[simp] theorem sa_family_setFamily (family : UInt16) :
    sa_family (setFamily addr family) = family := by
  unfold sa_family setFamily
  rw [load_store_self (Nat.lt_of_lt_of_eq family.toNat_lt (by decide)), UInt16.ofNat_toNat]

@[simp] theorem sa_family_setPort (port : UInt16) :
    sa_family (setPort addr port) = sa_family addr := by
  unfold sa_family setPort
  rw [load_store_of_apart (by decide)]

@[simp] theorem sa_family_setFlowinfo (flowinfo : UInt32) :
    sa_family (setFlowinfo addr flowinfo) = sa_family addr := by
  unfold sa_family setFlowinfo
  rw [load_store_of_apart (by decide)]

@[simp] theorem sa_family_setScopeId (scope_id : UInt32) :
    sa_family (setScopeId addr scope_id) = sa_family addr := by
  unfold sa_family setScopeId
  rw [load_store_of_apart (by decide)]

@[simp] theorem sin6_scope_id_setScopeId (scope_id : UInt32) :
    sin6_scope_id (setScopeId addr scope_id) = scope_id := by
  unfold sin6_scope_id setScopeId
  rw [load_store_self (Nat.lt_of_lt_of_eq scope_id.toNat_lt (by decide)), UInt32.ofNat_toNat]

/-- The family and the port are beside `sin_addr`. -/
theorem sin_addr_sockaddr (s_addr : UInt32) (family port : UInt16) :
    sin_addr (sockaddr (setPort (setFamily (setFamily (setSinAddr addr s_addr) AF_INET) family)
      port)) = LittleEndian.encode 4 s_addr.toNat := by
  have region := @read_write_self addr 4 (LittleEndian.encode 4 s_addr.toNat)
  rw [LittleEndian.length_encode] at region
  unfold sin_addr sockaddr
  dsimp only
  rw [read_part (by decide)]
  unfold setPort setFamily store
  rw [read_write_of_apart (by simp), read_write_of_apart (by simp), read_write_of_apart (by simp)]
  exact region

/-- The other fields are beside `sin6_addr`. -/
theorem sin6_addr_sockaddr (family port : UInt16) (flowinfo scope_id : UInt32) :
    sin6_addr (sockaddr (setScopeId (setFlowinfo (setPort (setFamily addr family) port) flowinfo)
      scope_id)) = sin6_addr (sockaddr addr) := by
  unfold sin6_addr sockaddr
  dsimp only
  rw [read_part (by decide), read_part (by decide)]
  unfold setScopeId setFlowinfo setPort setFamily store
  rw [read_write_of_apart (by simp), read_write_of_apart (by simp), read_write_of_apart (by simp),
    read_write_of_apart (by simp)]

end Fields

/-! ## `bind` and `getsockname` -/

/-- What the system does when an address is bound, and what it reports. An error is the object
of `errorhandler`. -/
structure Network (Os : Type) where
  bind : Os → Int64 → SockAddr → Nat → Except Value Os
  getsockname : Os → Int64 → Nat → Except Value (SockAddr × Int32)

section Methods

variable {Os α : Type} (env : Environment) (resolver : Resolver) (network : Network Os)

/-- The checks with which a method begins. -/
def withSelf (body : Sock → LuaM α) : LuaM α := do
  match ← lua_touserdata env 1 with
  | none => throw (.argument 1 "invalid socket")
  | some s => do
      checkInstance env 1 (lua_upvalueindex 1)
      body s

/-- `luaL_checkany`. -/
def luaL_checkany (arg : Int) : LuaM Unit := fun state =>
  match IndexedStack.slot state.stack arg with
  | some _ => .ok () state
  | none => .error (.argument arg "value expected") state

/-- `sock_bind`: what it returns, and the system after it. -/
def sock_bind (os : Os) (addrbuf : SockAddr) : LuaM (List Value × Os) :=
  withSelf env fun s => do
    luaL_checkany 2
    match ← getsockaddrarg resolver 2 s addrbuf with
    | none => lua_error
    | some (addrbuf, addrlen) =>
        match network.bind os s.sock_fd addrbuf addrlen with
        | .error error => do
            push error
            lua_error
        | .ok os => return ([], os)

/-- `sock_getsockname`. -/
def sock_getsockname (os : Os) : LuaM (List Value) :=
  withSelf env fun s => do
    match ← getsockaddrlen s with
    | none => lua_error
    | some addrlen =>
        match network.getsockname os s.sock_fd addrlen with
        | .error error => do
            push error
            lua_error
        | .ok (addrbuf, addrlen) => do
            let ok ← makesockaddr env (sockaddr addrbuf) addrlen
            if ok then returns 1
            else lua_error

end Methods

/-- A method is called on the socket. -/
structure Self (env : Environment) (s : Sock) (state : LuaState) : Prop where
  userdata : lua_touserdata env 1 state = .ok (some s) state
  isInstance : checkInstance env 1 (lua_upvalueindex 1) state = .ok () state

/-- The system writes an address of these octets as their dotted quad. -/
def Numeric (env : Environment) (a b c d : UInt8) : Prop :=
  ∀ addr, addr.sa_family = AF_INET → sin_addr addr = [a, b, c, d] →
    env.getnameinfo addr sizeof_sockaddr_in = .ok (quadText a b c d)

section Resolution

variable (resolver : Resolver) (a b c d : UInt8)

theorem isOctet_ofNat (octet : UInt8) : isOctet (.ofNat octet.toNat) = true := by
  have small := octet.toNat_lt
  have value : (Int32.ofNat octet.toNat).toInt = octet.toNat := by
    rw [Int32.toInt_ofNat_of_lt]
    omega
  have zero : (0 : Int32).toInt = 0 := rfl
  have top : (255 : Int32).toInt = 255 := rfl
  unfold isOctet
  rw [decide_eq_true_eq, Int32.le_iff_toInt_le, Int32.le_iff_toInt_le, value, zero, top]
  omega

theorem toUInt32_ofNat (octet : UInt8) : (Int32.ofNat octet.toNat).toUInt32 = octet.toUInt32 := by
  apply UInt32.toNat_inj.mp
  simp

/-- An octet is read up to what is no digit. -/
theorem scanInt_text (octet : UInt8) {rest : List UInt8}
    (ends : ∀ byte, rest.head? = some byte → Decimal.isDigit byte = false) :
    scanInt resolver (Decimal.text octet.toNat ++ rest) = some (.ofNat octet.toNat, rest) := by
  have small := octet.toNat_lt
  have fits : (-2 ^ 31 : Int) ≤ (octet.toNat : Int) ∧ (octet.toNat : Int) < 2 ^ 31 := by omega
  unfold scanInt
  rw [Decimal.scan_text octet.toNat ends, Option.map_some]
  dsimp only
  rw [if_pos fits]
  rfl

theorem sscanf_quadText :
    sscanf resolver (quadText a b c d) =
      some (.ofNat a.toNat, .ofNat b.toNat, .ofNat c.toNat, .ofNat d.toNat) := by
  have dot (rest : List UInt8) (byte : UInt8) (first : (46 :: rest).head? = some byte) :
      Decimal.isDigit byte = false := by
    cases first
    rfl
  have last : scanInt resolver (Decimal.text d.toNat) = some (.ofNat d.toNat, []) := by
    have scanned := @scanInt_text resolver d [] nofun
    rw [List.append_nil] at scanned
    exact scanned
  unfold sscanf quadText
  simp only [List.append_assoc, List.cons_append, scanInt_text resolver _ (dot _), scanDot, last,
    Option.bind_eq_bind, Option.bind_some, if_true]

theorem dottedQuad_quadText : dottedQuad resolver (quadText a b c d) = some (quad a b c d) := by
  unfold dottedQuad
  rw [sscanf_quadText]
  simp only [isOctet_ofNat, toUInt32_ofNat, and_self, if_true]
  rfl

/-- A dotted quad is resolved without the resolver. -/
theorem setipaddr_quadText (addr_ret : SockAddr) (addr_ret_size : Nat) (af : Int32)
    (state : LuaState) :
    setipaddr resolver (quadText a b c d) addr_ret addr_ret_size af state =
      .ok (4, setFamily (setSinAddr
        (write addr_ret 0 (List.replicate sizeof_sockaddr 0)) (htonl (quad a b c d))) AF_INET)
        state := by
  have noBracket : (60 : UInt8) ∉ quadText a b c d := fun bracket => (plain_quadText bracket).2 rfl
  unfold setipaddr
  simp only [cString_quadText]
  rw [if_neg (quadText_ne_nil a b c d), if_neg (ne_broadcast noBracket),
    dottedQuad_quadText]
  rfl

end Resolution

/-! ## Both ways -/

/-- Each integer fits its place, and for `AF_INET6` all of them are given. -/
def AddressArgument.Proper (family : Int32) (argument : AddressArgument) : Prop :=
  IsPort argument.port.toInt ∧
    (family = .ofNat AF_INET6.toNat → ∃ flowinfo scope_id, argument.flowinfo = some flowinfo ∧
      argument.scope_id = some scope_id ∧ IsFlowinfo flowinfo.toInt ∧
      0 ≤ scope_id.toInt ∧ scope_id.toInt < 2 ^ 32)

/-- The host is a dotted quad; or it is one of `AF_INET6`, where it is resolved and addresses
have names. -/
def Known (env : Environment) (resolver : Resolver) (family : Int32) (host : List UInt8)
    (addr_ret : SockAddr) : Prop :=
  (family = .ofNat AF_INET.toNat ∧
      ∃ a b c d, host = quadText a b c d ∧ Numeric env a b c d) ∨
    (family = .ofNat AF_INET6.toNat ∧
      Resolves resolver host addr_ret sizeof_sockaddr_in6 (.ofNat AF_INET6.toNat) ∧
      ∀ addr, addr.sa_family = AF_INET6 →
        ∃ name, env.getnameinfo addr sizeof_sockaddr_in6 = .ok name)

/-- What becomes of a host. For `AF_INET` `getsockname` returns the same text. For `AF_INET6` the
address is the one to which the host was resolved, and `getsockname` returns what `getnameinfo`
says of it. -/
structure SameHost (env : Environment) (resolver : Resolver) (family : Int32)
    (host : List UInt8) (addr_ret addr : SockAddr) (name : List UInt8) : Prop where
  text : family = .ofNat AF_INET.toNat → name = host
  resolved : family = .ofNat AF_INET6.toNat → ∃ result resolved,
    (∀ state, setipaddr resolver host addr_ret sizeof_sockaddr_in6 (.ofNat AF_INET6.toNat) state =
        .ok (result, resolved) state) ∧
      sin6_addr (sockaddr addr) = sin6_addr (sockaddr resolved)
  named : family = .ofNat AF_INET6.toNat →
    env.getnameinfo (sockaddr addr) sizeof_sockaddr_in6 = .ok name

/-- The values of a table with these fields, in their order. -/
def AddressArgument.values (family : Int32) (argument : AddressArgument) (name : List UInt8) :
    List Value :=
  if family = .ofNat AF_INET.toNat then [.string name, .integer argument.port]
  else [.string name, .integer argument.port, optional argument.flowinfo,
    optional argument.scope_id]

/-- An unsigned number comes back as the integer that it was. -/
theorem ofNat_eq {n : Nat} {given : Int64} (same : (n : Int) = given.toInt) :
    Int64.ofNat n = given := by
  have high := given.toInt_lt
  apply Int64.toInt_inj.mp
  rw [Int64.toInt_ofNat_of_lt (by omega), same]

section RoundTrip

variable {env : Environment} {resolver : Resolver} {s : Sock} {state : LuaState} {table : Table}
  {argument : AddressArgument} {addr_ret addr : SockAddr} {stack : List Value} {upvalue : Value}
  {tables : List Table}

/-- What is in the address that `getsockaddrarg` makes. -/
structure Holds (argument : AddressArgument) (family : UInt16) (addr : SockAddr) : Prop where
  family : sa_family addr = family
  port : Int64.ofNat (ntohs (sin_port addr)).toNat = argument.port

/-- A dotted quad and a port are stored. -/
theorem getsockaddrarg_quadText {a b c d : UInt8} (at_ : TableAt 2 table stack tables)
    (fields : argument.In table) (family : s.sock_family = .ofNat AF_INET.toNat)
    (isPort : IsPort argument.port.toInt) (host : argument.host = quadText a b c d) :
    ∃ addr after, getsockaddrarg resolver 2 s addr_ret ⟨stack, upvalue, tables⟩ =
        .ok (some (addr, sizeof_sockaddr_in)) after ∧
      Holds argument AF_INET addr ∧ sin_addr (sockaddr addr) = [a, b, c, d] := by
  have resolved (state : LuaState) := setipaddr_quadText resolver a b c d addr_ret
    sizeof_sockaddr_in (.ofNat AF_INET.toNat) state
  rw [← host] at resolved
  have ran := getsockaddrarg_in_resolved upvalue at_ fields (by decide) resolved
  have within : ¬ (argument.port < 0 ∨ argument.port > 0xffff) :=
    fun out => (not_isPort_iff _).mp out isPort
  rw [if_neg within] at ran
  refine ⟨_, _, (congrFun (getsockaddrarg_of_inet family) _).trans ran, ⟨?_, ?_⟩, ?_⟩
  · rw [sa_family_setPort, sa_family_setFamily]
  · rw [sin_port_setPort]
    exact ofNat_eq (ntohs_stored isPort)
  · rw [sin_addr_sockaddr, encode_htonl]

/-- The four fields of `AF_INET6` are stored. -/
theorem getsockaddrarg_fields (at_ : TableAt 2 table stack tables) (fields : argument.In table)
    (family : s.sock_family = .ofNat AF_INET6.toNat) (isPort : IsPort argument.port.toInt)
    {flowinfo scope_id : Int64} (given : argument.flowinfo = some flowinfo)
    (scope : argument.scope_id = some scope_id) (isFlowinfo : IsFlowinfo flowinfo.toInt)
    (nonneg : 0 ≤ scope_id.toInt) (small : scope_id.toInt < 2 ^ 32)
    (resolves : Resolves resolver argument.host addr_ret sizeof_sockaddr_in6
      (.ofNat AF_INET6.toNat)) :
    ∃ addr after, getsockaddrarg resolver 2 s addr_ret ⟨stack, upvalue, tables⟩ =
        .ok (some (addr, sizeof_sockaddr_in6)) after ∧
      Holds argument AF_INET6 addr ∧
      Int64.ofNat (ntohl (sin6_flowinfo addr)).toNat = flowinfo ∧
      Int64.ofNat (sin6_scope_id addr).toNat = scope_id ∧
      ∃ result resolved, (∀ state, setipaddr resolver argument.host addr_ret sizeof_sockaddr_in6
          (.ofNat AF_INET6.toNat) state = .ok (result, resolved) state) ∧
        sin6_addr (sockaddr addr) = sin6_addr (sockaddr resolved) := by
  obtain ⟨result, addr, positive, resolved⟩ := resolves.settled
  have third : table.get (.integer 3) = .integer flowinfo := by rw [fields.flowinfo, given]; rfl
  have fourth : table.get (.integer 4) = .integer scope_id := by rw [fields.scope_id, scope]; rfl
  obtain ⟨below, ran⟩ :=
    getsockaddrarg_in6_resolved s upvalue at_ fields third fourth positive resolved
  have low := isFlowinfo.1
  have high := isFlowinfo.2
  have portLow := isPort.1
  have portHigh := isPort.2
  have samePort : argument.port.toInt32.toInt = argument.port.toInt :=
    toInt_toInt32 (by omega) (by omega)
  have sameFlowinfo : flowinfo.toInt32.toInt = flowinfo.toInt :=
    toInt_toInt32 (by omega) (by omega)
  have within : ¬ (argument.port.toInt32 < 0 ∨ argument.port.toInt32 > 0xffff) := by
    rw [not_isPort_iff_int32, samePort]
    exact not_not.mpr isPort
  have short : ¬ flowinfo.toInt32 > 0xfffff := by
    rw [large_iff_int32, sameFlowinfo]
    exact Int.not_lt.mpr high
  rw [if_neg within, if_neg short] at ran
  refine ⟨_, _, (congrFun (getsockaddrarg_of_inet6 family) _).trans ran, ⟨?_, ?_⟩, ?_, ?_,
    result, addr, resolved, sin6_addr_sockaddr ..⟩
  · rw [sa_family_setScopeId, sa_family_setFlowinfo, sa_family_setPort, sa_family_setFamily,
      family]
    decide
  · rw [sin_port_setScopeId, sin_port_setFlowinfo, sin_port_setPort]
    exact ofNat_eq (ntohs_stored_in6 isPort)
  · rw [sin6_flowinfo_setScopeId, sin6_flowinfo_setFlowinfo]
    exact ofNat_eq (ntohl_stored isFlowinfo)
  · rw [sin6_scope_id_setScopeId]
    exact ofNat_eq (toNat_signExtend (by decide) scope_id.toBitVec nonneg small)

/-- The checks of a method are passed. -/
theorem withSelf_run {α : Type} (self : Self env s state) (body : Sock → LuaM α) :
    withSelf env body state = body s state := by
  unfold withSelf
  rw [bind_of_ok self.userdata]
  dsimp only
  rw [bind_of_ok self.isInstance]

/-- A branch of `makesockaddr` has pushed a table with these values. -/
def PushesTable (env : Environment) (addr : SockAddr) (addrlen : Nat) (values : List Value) :
    Prop :=
  ∀ state, ∃ below, makesockaddr env (sockaddr addr) (.ofNat addrlen) state =
    .ok true ⟨.table state.tables.length :: below, state.upvalue,
      state.tables ++ [sequence values]⟩

theorem pushesTable_in (family : s.sock_family = .ofNat AF_INET.toNat)
    (holds : Holds argument AF_INET addr) {name : List UInt8}
    (named : env.getnameinfo (sockaddr addr) sizeof_sockaddr_in = .ok name) :
    PushesTable env addr sizeof_sockaddr_in (argument.values s.sock_family name) := by
  intro ⟨stack, upvalue, tables⟩
  have ran := makesockaddr_in_run stack upvalue tables named
  have port : Int64.ofNat (ntohs (sockaddr addr).sin_port).toNat = argument.port := holds.port
  rw [port] at ran
  have isFamily : (sockaddr addr).sa_family = AF_INET := holds.family
  unfold makesockaddr AddressArgument.values
  rw [if_neg (by decide), if_pos isFamily, if_pos family]
  exact ⟨stack, ran⟩

theorem pushesTable_in6 (family : s.sock_family = .ofNat AF_INET6.toNat)
    (holds : Holds argument AF_INET6 addr) {flowinfo scope_id : Int64}
    (given : argument.flowinfo = some flowinfo) (scope : argument.scope_id = some scope_id)
    (sameFlowinfo : Int64.ofNat (ntohl (sin6_flowinfo addr)).toNat = flowinfo)
    (sameScope : Int64.ofNat (sin6_scope_id addr).toNat = scope_id) {name : List UInt8}
    (named : env.getnameinfo (sockaddr addr) sizeof_sockaddr_in6 = .ok name) :
    PushesTable env addr sizeof_sockaddr_in6 (argument.values s.sock_family name) := by
  intro ⟨stack, upvalue, tables⟩
  have ran := makesockaddr_in6_run stack upvalue tables named
  have port : Int64.ofNat (ntohs (sockaddr addr).sin_port).toNat = argument.port := holds.port
  have third : Int64.ofNat (ntohl (sockaddr addr).sin6_flowinfo).toNat = flowinfo := sameFlowinfo
  have fourth : Int64.ofNat (sockaddr addr).sin6_scope_id.toNat = scope_id := sameScope
  rw [port, third, fourth] at ran
  have isFamily : (sockaddr addr).sa_family = AF_INET6 := holds.family
  have other : ¬ AF_INET6 = AF_INET := by decide
  have notInet : ¬ s.sock_family = .ofNat AF_INET.toNat := by
    rw [family]
    decide
  unfold makesockaddr AddressArgument.values
  rw [if_neg (by decide), isFamily, if_neg other, if_pos rfl, if_neg notInet, given, scope]
  exact ⟨.string name :: stack, ran⟩

section Calls

variable {Os : Type} {network : Network Os} {os bound : Os}

/-- `bind` gives the address to the system. -/
theorem sock_bind_run (self : Self env s state) {addrlen : Nat} {after : LuaState}
    (someAddress : ∃ value, IndexedStack.slot state.stack 2 = some value)
    (accepted : getsockaddrarg resolver 2 s addr_ret state = .ok (some (addr, addrlen)) after)
    (binds : network.bind os s.sock_fd addr addrlen = .ok bound) :
    sock_bind env resolver network os addr_ret state = .ok ([], bound) after := by
  obtain ⟨value, found⟩ := someAddress
  have given : luaL_checkany 2 state = .ok () state := by
    unfold luaL_checkany
    rw [found]
  unfold sock_bind
  rw [withSelf_run self, bind_of_ok given, bind_of_ok accepted]
  dsimp only
  rw [binds]
  rfl

/-- `getsockname` returns the table of the address that the system reports. -/
theorem sock_getsockname_run (self : Self env s state) {addrlen : Nat} {values : List Value}
    (length : getsockaddrlen s state = .ok (some addrlen) state)
    (reports : network.getsockname os s.sock_fd addrlen = .ok (addr, .ofNat addrlen))
    (pushes : PushesTable env addr addrlen values) :
    ∃ last, sock_getsockname env network os state =
        .ok [.table state.tables.length] last ∧
      last.tables[state.tables.length]? = some (sequence values) := by
  obtain ⟨below, pushed⟩ := pushes state
  refine ⟨⟨.table state.tables.length :: below, state.upvalue,
    state.tables ++ [sequence values]⟩, ?_, by simp⟩
  unfold sock_getsockname
  rw [withSelf_run self, bind_of_ok length]
  dsimp only
  rw [reports]
  dsimp only
  rw [bind_of_ok pushed, if_pos rfl]
  unfold returns
  rw [if_pos (by simp)]
  rfl

end Calls

/-- The address that was made of a table gives a table with the same fields. -/
theorem exists_address (at_ : TableAt 2 table stack tables) (fields : argument.In table)
    (proper : argument.Proper s.sock_family)
    (known : Known env resolver s.sock_family argument.host addr_ret) :
    ∃ addr after name, getsockaddrarg resolver 2 s addr_ret ⟨stack, upvalue, tables⟩ =
        .ok (some (addr, addressSize s.sock_family)) after ∧
      SameHost env resolver s.sock_family argument.host addr_ret addr name ∧
      PushesTable env addr (addressSize s.sock_family)
        (argument.values s.sock_family name) := by
  obtain ⟨isPort, others⟩ := proper
  rcases known with ⟨family, a, b, c, d, host, numeric⟩ | ⟨family, resolves, named⟩
  · obtain ⟨addr, after, accepted, holds, octets⟩ := getsockaddrarg_quadText at_ fields family
      isPort host
    have written := numeric (sockaddr addr) holds.family octets
    have size : addressSize s.sock_family = sizeof_sockaddr_in := if_pos family
    rw [size]
    have other : ¬ s.sock_family = .ofNat AF_INET6.toNat := by
      rw [family]
      decide
    exact ⟨addr, after, quadText a b c d, accepted,
      ⟨fun _ => host.symm, fun inet6 => absurd inet6 other, fun inet6 => absurd inet6 other⟩,
      pushesTable_in family holds written⟩
  · obtain ⟨flowinfo, scope_id, given, scope, isFlowinfo, nonneg, small⟩ := others family
    have other : ¬ s.sock_family = .ofNat AF_INET.toNat := by
      rw [family]
      decide
    have size : addressSize s.sock_family = sizeof_sockaddr_in6 := if_neg other
    obtain ⟨addr, after, accepted, holds, sameFlowinfo, sameScope, resolved⟩ :=
      getsockaddrarg_fields at_ fields family isPort given scope isFlowinfo nonneg small resolves
    obtain ⟨name, written⟩ := named (sockaddr addr) holds.family
    rw [size]
    exact ⟨addr, after, name, accepted,
      ⟨fun inet => absurd inet other, fun _ => resolved, fun _ => written⟩,
      pushesTable_in6 family holds given scope sameFlowinfo sameScope written⟩

/-- The size for a family that is known. -/
theorem getsockaddrlen_run
    (known : Known env resolver s.sock_family argument.host addr_ret) (state : LuaState) :
    getsockaddrlen s state = .ok (some (addressSize s.sock_family)) state := by
  unfold getsockaddrlen addressSize
  rcases known with ⟨family, _⟩ | ⟨family, _⟩
  · rw [if_pos family, if_pos family]
    rfl
  · have other : ¬ s.sock_family = .ofNat AF_INET.toNat := by
      rw [family]
      decide
    rw [if_neg other, if_neg other, if_pos family]
    rfl

/-- **What `bind` was given `getsockname` returns.** Of a table of proper fields `bind` makes an
address; when the system binds it, `bind` returns, and as long as the system reports it,
`getsockname` returns a table with the same fields, whatever else is on the stack. The host is
the same for a dotted quad; for `AF_INET6` it is what `getnameinfo` says of the address to which
it was resolved. -/
theorem bound_address_returned (self : Self env s state)
    (at_ : TableAt 2 table state.stack state.tables) (fields : argument.In table)
    (proper : argument.Proper s.sock_family)
    (known : Known env resolver s.sock_family argument.host addr_ret) :
    ∃ addr after name, SameHost env resolver s.sock_family argument.host addr_ret addr name ∧
      ∀ (Os : Type) (network : Network Os) (os bound : Os),
        network.bind os s.sock_fd addr (addressSize s.sock_family) = .ok bound →
        sock_bind env resolver network os addr_ret state = .ok ([], bound) after ∧
        ∀ (now : Os) (later : LuaState), Self env s later →
          network.getsockname now s.sock_fd (addressSize s.sock_family) =
            .ok (addr, .ofNat (addressSize s.sock_family)) →
          ∃ ref last, sock_getsockname env network now later = .ok [.table ref] last ∧
            last.tables[ref]? = some (sequence (argument.values s.sock_family name)) := by
  obtain ⟨stack, upvalue, tables⟩ := state
  obtain ⟨addr, after, name, accepted, sameHost, pushes⟩ :=
    exists_address at_ fields proper known
  have someAddress : ∃ value, IndexedStack.slot stack 2 = some value := by
    obtain ⟨ref, found, _⟩ := at_.found
    exact ⟨.table ref, found⟩
  refine ⟨addr, after, name, sameHost, fun Os network os bound binds => ⟨?_, ?_⟩⟩
  · exact sock_bind_run self someAddress accepted binds
  · intro now later again reports
    obtain ⟨last, returned, made⟩ :=
      sock_getsockname_run again (getsockaddrlen_run known later) reports pushes
    exact ⟨_, last, returned, made⟩

end RoundTrip

/-- A network that keeps the last address that was bound. -/
def lastBound : Network (Option (SockAddr × Nat)) where
  bind := fun _ _ addr addrlen => .ok (some (addr, addrlen))
  getsockname := fun os _ _ =>
    match os with
    | some (addr, addrlen) => .ok (addr, .ofNat addrlen)
    | none => .error .nil

/-- The octets of the loopback address of `AF_INET6`. -/
def loopback6 : List UInt8 := List.replicate 15 0 ++ [1]

/-- A resolver that knows this address by the name `::1`. -/
def localhost : Resolver where
  getaddrinfo := fun node _ _ _ _ =>
    if node = some [58, 58, 49] then
      .ok {
        ai_family := 23
        ai_addr := [23, 0, 0, 0, 0, 0, 0, 0] ++ loopback6 ++ [0, 0, 0, 0]
        ai_next := false }
    else .error 11001
  overflow := fun _ => 0
  conversions := { numeral := fun _ => none, typename := fun _ => "nil" }

/-- It resolves that name to the address. -/
theorem setipaddr_localhost (state : LuaState) :
    ∃ resolved, setipaddr localhost [58, 58, 49] (fun _ => 0) sizeof_sockaddr_in6
        (.ofNat AF_INET6.toNat) state = .ok (16, resolved) state ∧
      sin6_addr (sockaddr resolved) = loopback6 := by
  have noBracket : (60 : UInt8) ∉ [58, 58, 49] := by decide
  have text : cString [58, 58, 49] = [58, 58, 49] := rfl
  have noQuad : dottedQuad localhost [58, 58, 49] = none := rfl
  have resolves : localhost.getaddrinfo (some [58, 58, 49]) none (.ofNat AF_INET6.toNat) 0 0 =
      .ok ⟨23, [23, 0, 0, 0, 0, 0, 0, 0] ++ loopback6 ++ [0, 0, 0, 0], false⟩ := rfl
  unfold setipaddr
  simp only [text]
  rw [if_neg (by simp), if_neg (ne_broadcast noBracket), noQuad]
  simp only [resolves]
  rw [if_neg (by decide), if_pos (by decide)]
  exact ⟨_, rfl, by decide⟩

/-- A socket of `AF_INET`. -/
def socket4 : Sock := { socket6 with sock_family := 2 }

/-- The system and the classes around a socket. -/
def aroundLoopback (s : Sock) : Environment where
  getnameinfo := fun addr addrlen =>
    if addrlen = sizeof_sockaddr_in then .ok (quadText 127 0 0 1)
    else .ok (if sin6_addr addr = loopback6 then [58, 58, 49] else [58, 58])
  touserdata := fun _ => some s
  isInstance := fun _ _ => true
  isSelectable := fun _ => true
  accept := fun _ _ => .timedOut
  metafield := fun _ _ => .nil
  call := fun _ _ tables => .ok (.object 2, tables)

theorem self_aroundLoopback (s : Sock) (below : List Value) (tables : List Table) :
    Self (aroundLoopback s) s ⟨below ++ [.object 0], .object 5, tables⟩ := by
  have found : IndexedStack.slot (below ++ [.object 0]) 1 = some (Value.object 0) :=
    IndexedStack.slot_absolute below (.object 0) []
  have ordinary : (1 : Int) ≠ lua_upvalueindex 1 := by decide
  constructor
  · unfold lua_touserdata
    rw [found]
    rfl
  · unfold checkInstance
    rw [bind_of_ok (index2addr_of_slot ordinary found), bind_of_ok (index2addr_upvalue _)]
    rfl

/-- Port 80 of the loopback address, as an argument and as a table. -/
def atLoopback : AddressArgument where
  host := quadText 127 0 0 1
  port := 80
  flowinfo := none
  scope_id := none

def atLoopbackTable : Table :=
  [(.integer 1, .string (quadText 127 0 0 1)), (.integer 2, .integer 80)]

/-- The same for `AF_INET6`, with the flow label 5 in the scope 2. -/
def atLoopback6 : AddressArgument where
  host := [58, 58, 49]
  port := 80
  flowinfo := some 5
  scope_id := some 2

def atLoopback6Table : Table :=
  [(.integer 1, .string [58, 58, 49]), (.integer 2, .integer 80), (.integer 3, .integer 5),
    (.integer 4, .integer 2)]

/-- The table is the second argument. -/
def withTable (table : Table) : LuaState where
  stack := [.table 0, .object 0]
  upvalue := .object 5
  tables := [table]

/-- A socket with these fields is bound and asked for its address, which is a table of these
values. -/
def BoundReturns (s : Sock) (table : Table) (values : List Value) : Prop :=
  ∃ bound after ref last,
    sock_bind (aroundLoopback s) localhost lastBound none (fun _ => 0) (withTable table) =
      .ok ([], bound) after ∧
    sock_getsockname (aroundLoopback s) lastBound bound ⟨[.object 0], .object 5, []⟩ =
      .ok [.table ref] last ∧
    last.tables[ref]? = some (sequence values)

/-- Sockets of both families that are bound to port 80 of the loopback address. -/
theorem bound_address_returned_loopback :
    BoundReturns socket4 atLoopbackTable [.string (quadText 127 0 0 1), .integer 80] ∧
      BoundReturns socket6 atLoopback6Table
        [.string [58, 58, 49], .integer 80, .integer 5, .integer 2] := by
  constructor
  · have known : Known (aroundLoopback socket4) localhost socket4.sock_family atLoopback.host
        fun _ => 0 := .inl ⟨rfl, 127, 0, 0, 1, rfl, fun _ _ _ => rfl⟩
    have proper : atLoopback.Proper socket4.sock_family := by
      refine ⟨by decide, fun inet6 => ?_⟩
      cases inet6
    obtain ⟨addr, after, name, sameHost, returned⟩ :=
      bound_address_returned (self_aroundLoopback socket4 [.table 0] [atLoopbackTable])
        ⟨by decide, 0, rfl, rfl⟩ ⟨rfl, rfl, rfl, rfl⟩ proper known
    obtain ⟨binds, reports⟩ := returned _ lastBound none (some (addr, 16)) rfl
    obtain ⟨ref, last, named, made⟩ := reports (some (addr, 16)) _
      (self_aroundLoopback socket4 [] []) rfl
    rw [sameHost.text rfl] at made
    exact ⟨_, after, ref, last, binds, named, made⟩
  · obtain ⟨address, resolves, octets⟩ := setipaddr_localhost ⟨[], .nil, []⟩
    have known : Known (aroundLoopback socket6) localhost socket6.sock_family atLoopback6.host
        fun _ => 0 := .inr ⟨rfl, ⟨_, 16, _, _, by decide, resolves⟩, fun _ _ => ⟨_, rfl⟩⟩
    have proper : atLoopback6.Proper socket6.sock_family :=
      ⟨by decide, fun _ => ⟨5, 2, rfl, rfl, by decide⟩⟩
    obtain ⟨addr, after, name, sameHost, returned⟩ :=
      bound_address_returned (self_aroundLoopback socket6 [.table 0] [atLoopback6Table])
        ⟨by decide, 0, rfl, rfl⟩ ⟨rfl, rfl, rfl, rfl⟩ proper known
    obtain ⟨binds, reports⟩ := returned _ lastBound none (some (addr, 28)) rfl
    obtain ⟨ref, last, named, made⟩ := reports (some (addr, 28)) _
      (self_aroundLoopback socket6 [] []) rfl
    -- the address that was bound is the one that the resolver knows
    obtain ⟨result, resolved, settled, same⟩ := sameHost.resolved rfl
    cases (settled _).symm.trans resolves
    have isLoopback : sin6_addr (sockaddr addr) = loopback6 := same.trans octets
    have written := sameHost.named rfl
    have name_ : (aroundLoopback socket6).getnameinfo (sockaddr addr) sizeof_sockaddr_in6 =
        .ok [58, 58, 49] := congrArg Except.ok (if_pos isLoopback)
    cases name_.symm.trans written
    exact ⟨_, after, ref, last, binds, named, made⟩

end Socket

end EasyLua
