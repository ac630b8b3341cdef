import EasyLua.Foundation.ByteMemory
import EasyLua.Foundation.Decimal
import EasyLua.Socket.Accept
import Mathlib.Tactic.IntervalCases

/-!
# Addresses as arguments

`getsockaddrarg` turns the table `{host, port[, flowinfo, scope_id]}` of a script into a socket
address. The branch for `AF_INET` tests the port as the integer that the script gave. The one
for `AF_INET6` converts its integers to `int` before it tests them, tests `flowinfo` from above
only and needs all four fields. What the resolver answers is given.
-/

namespace EasyLua

namespace Socket

open ByteMemory

/-- The memory of a `sock_addr_t`. -/
abbrev SockAddr := Nat → UInt8

/-- `struct addrinfo`: the family, the address and whether there is another one. -/
structure AddrInfo where
  ai_family : Int32
  ai_addr : List UInt8
  ai_next : Bool

/-- The resolver and the C library. -/
structure Resolver where
  getaddrinfo (node service : Option (List UInt8)) (ai_family ai_socktype ai_flags : Int32) :
    Except Int32 AddrInfo
  /-- What `%d` stores for a number that is not one of an `int`; C leaves it open. -/
  overflow : Int → Int32
  conversions : Conversions

/-! ## Byte order -/

/-- `htons` of a machine with its low byte first. -/
def htons (hostshort : UInt16) : UInt16 := hostshort <<< 8 ||| hostshort >>> 8

/-- `htonl` of a machine with its low byte first. -/
def htonl (hostlong : UInt32) : UInt32 :=
  let second : UInt32 := 0xff00
  hostlong <<< 24 ||| (hostlong &&& second) <<< 8 ||| (hostlong >>> 8 &&& second) |||
    hostlong >>> 24

theorem ntohs_htons (hostshort : UInt16) : ntohs (htons hostshort) = hostshort := by
  apply UInt16.toBitVec_inj.mp
  apply BitVec.eq_of_getLsbD_eq
  intro i inside
  simp only [ntohs, htons, UInt16.toBitVec_or, UInt16.toBitVec_shiftLeft,
    UInt16.toBitVec_shiftRight]
  interval_cases i <;> simp

theorem ntohl_htonl (hostlong : UInt32) : ntohl (htonl hostlong) = hostlong := by
  apply UInt32.toBitVec_inj.mp
  apply BitVec.eq_of_getLsbD_eq
  intro i inside
  simp only [ntohl, htonl, UInt32.toBitVec_or, UInt32.toBitVec_and, UInt32.toBitVec_shiftLeft,
    UInt32.toBitVec_shiftRight]
  interval_cases i <;> simp

/-! ## The fields of an address -/

def sizeof_sockaddr : Nat := 16

def AF_UNSPEC : Int32 := 0

def SOCK_DGRAM : Int32 := 2

def AI_PASSIVE : Int32 := 1

def INADDR_BROADCAST : UInt32 := 0xffffffff

/-- `sa_family`, which is `sin_family` and `sin6_family` too. -/
def sa_family (addr : SockAddr) : UInt16 := .ofNat (load addr 0 2)

/-- `sin_port` and `sin6_port`. -/
def sin_port (addr : SockAddr) : UInt16 := .ofNat (load addr 2 2)

/-- `sin6_flowinfo`, which lies where `sin_addr` does. -/
def sin6_flowinfo (addr : SockAddr) : UInt32 := .ofNat (load addr 4 4)

def setFamily (addr : SockAddr) (family : UInt16) : SockAddr := store addr 0 2 family.toNat

def setPort (addr : SockAddr) (port : UInt16) : SockAddr := store addr 2 2 port.toNat

def setSinAddr (addr : SockAddr) (s_addr : UInt32) : SockAddr := store addr 4 4 s_addr.toNat

def setFlowinfo (addr : SockAddr) (flowinfo : UInt32) : SockAddr := store addr 4 4 flowinfo.toNat

def setScopeId (addr : SockAddr) (scope_id : UInt32) : SockAddr := store addr 24 4 scope_id.toNat

/-! A field is read as it was set, and the setters leave each other's fields alone. -/

@[simp] theorem sin_port_setPort (addr : SockAddr) (port : UInt16) :
    sin_port (setPort addr port) = port := by
  unfold sin_port setPort
  rw [load_store_self (Nat.lt_of_lt_of_eq port.toNat_lt (by decide)), UInt16.ofNat_toNat]

@[simp] theorem sin_port_setFlowinfo (addr : SockAddr) (flowinfo : UInt32) :
    sin_port (setFlowinfo addr flowinfo) = sin_port addr := by
  unfold sin_port setFlowinfo
  rw [load_store_of_apart (by omega)]

@[simp] theorem sin_port_setScopeId (addr : SockAddr) (scope_id : UInt32) :
    sin_port (setScopeId addr scope_id) = sin_port addr := by
  unfold sin_port setScopeId
  rw [load_store_of_apart (by omega)]

@[simp] theorem sin6_flowinfo_setFlowinfo (addr : SockAddr) (flowinfo : UInt32) :
    sin6_flowinfo (setFlowinfo addr flowinfo) = flowinfo := by
  unfold sin6_flowinfo setFlowinfo
  rw [load_store_self (Nat.lt_of_lt_of_eq flowinfo.toNat_lt (by decide)), UInt32.ofNat_toNat]

@[simp] theorem sin6_flowinfo_setScopeId (addr : SockAddr) (scope_id : UInt32) :
    sin6_flowinfo (setScopeId addr scope_id) = sin6_flowinfo addr := by
  unfold sin6_flowinfo setScopeId
  rw [load_store_of_apart (by omega)]

section Functions

variable (env : Resolver)

/-- `%d` of `sscanf`, and what follows. -/
def scanInt (bytes : List UInt8) : Option (Int32 × List UInt8) :=
  (Decimal.scan bytes).map fun (number, rest) =>
    (if -2 ^ 31 ≤ number ∧ number < 2 ^ 31 then .ofInt number else env.overflow number, rest)

/-- A dot in the format of `sscanf`. -/
def scanDot : List UInt8 → Option (List UInt8)
  | 46 :: rest => some rest
  | _ => none

/-- The numbers when `sscanf(name, "%d.%d.%d.%d%c", ...)` returns four: whatever is behind the
fourth of them, `%c` takes it. -/
def sscanf (name : List UInt8) : Option (Int32 × Int32 × Int32 × Int32) := do
  let (d1, rest) ← scanInt env name
  let rest ← scanDot rest
  let (d2, rest) ← scanInt env rest
  let rest ← scanDot rest
  let (d3, rest) ← scanInt env rest
  let rest ← scanDot rest
  let (d4, rest) ← scanInt env rest
  if rest = [] then some (d1, d2, d3, d4) else none

/-- A number from 0 to 255. -/
def isOctet (d : Int32) : Bool := 0 ≤ d ∧ d ≤ 255

/-- The dotted quad of `setipaddr`. -/
def dottedQuad (name : List UInt8) : Option UInt32 :=
  match sscanf env name with
  | some (d1, d2, d3, d4) =>
      if isOctet d1 ∧ isOctet d2 ∧ isOctet d3 ∧ isOctet d4 then
        some (d1.toUInt32 <<< 24 ||| d2.toUInt32 <<< 16 ||| d3.toUInt32 <<< 8 ||| d4.toUInt32)
      else none
  | none => none

/-- `setipaddr`: its result and the memory behind `addr_ret`. -/
def setipaddr (name : List UInt8) (addr_ret : SockAddr) (addr_ret_size : Nat) (af : Int32) :
    LuaM (Int × SockAddr) := do
  let name := cString name
  let addr_ret := write addr_ret 0 (List.replicate sizeof_sockaddr 0)
  if name = [] then
    match env.getaddrinfo none (some "0".toUTF8.toList) af SOCK_DGRAM AI_PASSIVE with
    | .error error => do
        set_gaierror error
        return (-1, addr_ret)
    | .ok res =>
        if res.ai_family ≠ .ofNat AF_INET.toNat ∧ res.ai_family ≠ .ofNat AF_INET6.toNat then do
          createErrorObj "cSocketError" "unsupported address family" 0
          return (-1, addr_ret)
        else if res.ai_next then do
          createErrorObj "cSocketError" "wildcard resolved to multiple address" 0
          return (-1, addr_ret)
        else
          let siz := if res.ai_family = .ofNat AF_INET.toNat then 4 else 16
          return (siz, write addr_ret 0 (res.ai_addr.take addr_ret_size))
  else if name = "<broadcast>".toUTF8.toList then
    if af ≠ .ofNat AF_INET.toNat ∧ af ≠ AF_UNSPEC then do
      createErrorObj "cSocketError" "address family mismatched" 0
      return (-1, addr_ret)
    else return (4, setSinAddr (setFamily addr_ret AF_INET) INADDR_BROADCAST)
  else
    match dottedQuad env name with
    | some s_addr => return (4, setFamily (setSinAddr addr_ret (htonl s_addr)) AF_INET)
    | none =>
        match env.getaddrinfo (some name) none af 0 0 with
        | .error error => do
            set_gaierror error
            return (-1, addr_ret)
        | .ok res =>
            let addr_ret := write addr_ret 0 (res.ai_addr.take addr_ret_size)
            if sa_family addr_ret = AF_INET then return (4, addr_ret)
            else if sa_family addr_ret = AF_INET6 then return (16, addr_ret)
            else do
              createErrorObj "cSocketError" "unknown address family" 0
              return (-1, addr_ret)

/-- The branch of `getsockaddrarg` for `AF_INET`. The address and its length stand for the
result 1, nothing for the result 0. -/
def getsockaddrarg_in (addressIdx : Int) (addr_ret : SockAddr) :
    LuaM (Option (SockAddr × Nat)) := do
  if ← lua_istable addressIdx then
    lua_pushinteger 1
    lua_gettable addressIdx
    let host ← luaL_checkstring env.conversions (-1)
    lua_pushinteger 2
    lua_gettable addressIdx
    let port ← luaL_checkinteger env.conversions (-1)
    let (result, addr) ←
      setipaddr env host addr_ret sizeof_sockaddr_in (.ofNat AF_INET.toNat)
    if result < 0 then return none
    else if port < 0 ∨ port > 0xffff then do
      push (.literal "getsockaddrarg: port must be 0-65535.")
      return none
    else
      return some (setPort (setFamily addr AF_INET) (htons port.toInt16.toUInt16),
        sizeof_sockaddr_in)
  else throw (.argument addressIdx "AF_INET address must be table")

/-- The branch for `AF_INET6`. -/
def getsockaddrarg_in6 (addressIdx : Int) (s : Sock) (addr_ret : SockAddr) :
    LuaM (Option (SockAddr × Nat)) := do
  if ← lua_istable addressIdx then
    lua_pushinteger 1
    lua_gettable addressIdx
    let host ← luaL_checkstring env.conversions (-1)
    lua_pushinteger 2
    lua_gettable addressIdx
    let port ← luaL_checkinteger env.conversions (-1)
    let port := port.toInt32
    lua_pushinteger 3
    lua_gettable addressIdx
    let flowinfo ← luaL_checkinteger env.conversions (-1)
    let flowinfo := flowinfo.toInt32
    lua_pushinteger 4
    lua_gettable addressIdx
    let scope_id ← luaL_checkinteger env.conversions (-1)
    let scope_id := scope_id.toInt32
    let (result, addr) ←
      setipaddr env host addr_ret sizeof_sockaddr_in6 (.ofNat AF_INET6.toNat)
    if result < 0 then return none
    else if port < 0 ∨ port > 0xffff then do
      push (.literal "getsockaddrarg: port must be 0-65535.")
      return none
    else if flowinfo > 0xfffff then do
      push (.literal "getsockaddrarg: flowinfo must be 0-1048575.")
      return none
    else
      let addr := setFamily addr s.sock_family.toInt16.toUInt16
      let addr := setPort addr (htons port.toInt16.toUInt16)
      let addr := setFlowinfo addr (htonl flowinfo.toUInt32)
      return some (setScopeId addr scope_id.toUInt32, sizeof_sockaddr_in6)
  else do
    push (.literal "AF_INET6 address must be table")
    return none

/-- `getsockaddrarg`, with `ENABLE_IPV6`. -/
def getsockaddrarg (addressIdx : Int) (s : Sock) (addr_ret : SockAddr) :
    LuaM (Option (SockAddr × Nat)) :=
  if s.sock_family = .ofNat AF_INET.toNat then getsockaddrarg_in env addressIdx addr_ret
  else if s.sock_family = .ofNat AF_INET6.toNat then getsockaddrarg_in6 env addressIdx s addr_ret
  else do
    createErrorObj "cSocketError" "getsockaddrarg: bad family" 0
    return none

end Functions

/-! ## The resolution of the host -/

/-- The host is resolved and the stack is left alone, or one error object is pushed. -/
def Settles (resolution : LuaM (Int × SockAddr)) : Prop :=
  (∃ result addr, 0 ≤ result ∧ ∀ state, resolution state = .ok (result, addr) state) ∨
    ∃ addr error, ∀ state, resolution state =
      .ok (-1, addr) { state with stack := error :: state.stack }

theorem settles_return {result : Int} (addr : SockAddr) (nonneg : 0 ≤ result) :
    Settles (return (result, addr)) :=
  .inl ⟨result, addr, nonneg, fun _ => rfl⟩

theorem settles_createErrorObj (sExceptTypeName sErrorMsg : String) (iCode : Int32)
    (addr : SockAddr) :
    Settles (do
      createErrorObj sExceptTypeName sErrorMsg iCode
      return (-1, addr)) :=
  .inr ⟨addr, .errorObj sExceptTypeName sErrorMsg iCode, fun _ => rfl⟩

theorem settles_ite {condition : Prop} [Decidable condition]
    {first second : LuaM (Int × SockAddr)} (yes : Settles first) (no : Settles second) :
    Settles (if condition then first else second) := by
  split
  · exact yes
  · exact no

/-- **`setipaddr` succeeds on every stack or fails on every stack.** -/
theorem setipaddr_settles (env : Resolver) (name : List UInt8) (addr_ret : SockAddr)
    (addr_ret_size : Nat) (af : Int32) :
    Settles (setipaddr env name addr_ret addr_ret_size af) := by
  unfold setipaddr
  dsimp only
  refine settles_ite ?_ (settles_ite ?_ ?_)
  · cases env.getaddrinfo none (some "0".toUTF8.toList) af SOCK_DGRAM AI_PASSIVE with
    | error error => exact settles_createErrorObj _ _ _ _
    | ok res =>
        refine settles_ite (settles_createErrorObj _ _ _ _)
          (settles_ite (settles_createErrorObj _ _ _ _) (settles_return _ ?_))
        split <;> decide
  · exact settles_ite (settles_createErrorObj _ _ _ _) (settles_return _ (by decide))
  · cases dottedQuad env (cString name) with
    | some s_addr => exact settles_return _ (by decide)
    | none =>
        cases env.getaddrinfo (some (cString name)) none af 0 0 with
        | error error => exact settles_createErrorObj _ _ _ _
        | ok res =>
            exact settles_ite (settles_return _ (by decide))
              (settles_ite (settles_return _ (by decide)) (settles_createErrorObj _ _ _ _))

/-- `setipaddr` succeeds for this host. -/
def Resolves (env : Resolver) (name : List UInt8) (addr_ret : SockAddr) (addr_ret_size : Nat)
    (af : Int32) : Prop :=
  ∃ state result addr after, 0 ≤ result ∧
    setipaddr env name addr_ret addr_ret_size af state = .ok (result, addr) after

theorem Resolves.settled {env : Resolver} {name : List UInt8} {addr_ret : SockAddr}
    {addr_ret_size : Nat} {af : Int32} (resolves : Resolves env name addr_ret addr_ret_size af) :
    ∃ result addr, 0 ≤ result ∧
      ∀ state, setipaddr env name addr_ret addr_ret_size af state = .ok (result, addr) state := by
  obtain ⟨state, result, addr, after, nonneg, resolved⟩ := resolves
  rcases setipaddr_settles env name addr_ret addr_ret_size af with succeeds | ⟨_, _, fails⟩
  · exact succeeds
  · rw [fails state] at resolved
    cases resolved
    omega

/-! ## The fields of the table -/

/-- What a script gives: a host, a port and for `AF_INET6` the two other integers, each of
which may be missing. -/
structure AddressArgument where
  host : List UInt8
  port : Int64
  flowinfo : Option Int64
  scope_id : Option Int64

def optional : Option Int64 → Value
  | some n => .integer n
  | none => .nil

/-- The table has these fields. -/
structure AddressArgument.In (argument : AddressArgument) (table : Table) : Prop where
  host : table.get (.integer 1) = .string argument.host
  port : table.get (.integer 2) = .integer argument.port
  flowinfo : table.get (.integer 3) = optional argument.flowinfo
  scope_id : table.get (.integer 4) = optional argument.scope_id

/-- The table is at this index, which counts from the bottom of the stack. -/
structure TableAt (idx : Int) (table : Table) (stack : List Value) (tables : List Table) :
    Prop where
  positive : 0 < idx
  found : ∃ ref, IndexedStack.slot stack idx = some (.table ref) ∧ tables[ref]? = some table

section Runs

variable {env : Resolver} {idx : Int} {table : Table} {stack : List Value} {upvalue : Value}
  {tables : List Table} {argument : AddressArgument} {addr_ret : SockAddr} {s : Sock}

theorem TableAt.push (at_ : TableAt idx table stack tables) (top : Value) :
    TableAt idx table (top :: stack) tables where
  positive := at_.positive
  found := by
    obtain ⟨ref, found, entry⟩ := at_.found
    exact ⟨ref, IndexedStack.slot_cons_of_pos _ at_.positive found top, entry⟩

theorem TableAt.istable (at_ : TableAt idx table stack tables) :
    lua_istable idx ⟨stack, upvalue, tables⟩ = .ok true ⟨stack, upvalue, tables⟩ := by
  obtain ⟨ref, found, _⟩ := at_.found
  unfold lua_istable
  simp only [found]

theorem TableAt.gettable (at_ : TableAt idx table stack tables) {key value : Value}
    (field : table.get key = value) :
    lua_gettable idx ⟨key :: stack, upvalue, tables⟩ =
      .ok () ⟨value :: stack, upvalue, tables⟩ := by
  obtain ⟨ref, found, entry⟩ := at_.found
  rw [← field]
  exact lua_gettable_absolute at_.positive found entry

/-- **The branch for `AF_INET`** on a table and a host that is resolved to an address. -/
theorem getsockaddrarg_in_resolved (upvalue : Value) (at_ : TableAt idx table stack tables)
    (fields : argument.In table) {result : Int} {addr : SockAddr} (nonneg : 0 ≤ result)
    (resolved : ∀ state, setipaddr env argument.host addr_ret sizeof_sockaddr_in
      (.ofNat AF_INET.toNat) state = .ok (result, addr) state) :
    getsockaddrarg_in env idx addr_ret ⟨stack, upvalue, tables⟩ =
      if argument.port < 0 ∨ argument.port > 0xffff then
        .ok none ⟨.literal "getsockaddrarg: port must be 0-65535." ::
          .integer argument.port :: .string argument.host :: stack, upvalue, tables⟩
      else
        .ok (some (setPort (setFamily addr AF_INET) (htons argument.port.toInt16.toUInt16),
            sizeof_sockaddr_in))
          ⟨.integer argument.port :: .string argument.host :: stack, upvalue, tables⟩ := by
  have atPort := at_.push (.string argument.host)
  unfold getsockaddrarg_in
  rw [bind_of_ok at_.istable, if_pos rfl]
  rw [bind_of_ok (lua_pushinteger_run _ _ _ _), bind_of_ok (at_.gettable fields.host),
    bind_of_ok (luaL_checkstring_top _ _)]
  rw [bind_of_ok (lua_pushinteger_run _ _ _ _), bind_of_ok (atPort.gettable fields.port),
    bind_of_ok (luaL_checkinteger_top _ _), bind_of_ok (resolved _)]
  dsimp only
  rw [if_neg (Int.not_lt.mpr nonneg)]
  split
  · rfl
  · rfl

/-- The branch for `AF_INET` on a table and a host that is resolved. -/
theorem getsockaddrarg_in_run (upvalue : Value) (at_ : TableAt idx table stack tables)
    (fields : argument.In table)
    (resolves : Resolves env argument.host addr_ret sizeof_sockaddr_in (.ofNat AF_INET.toNat)) :
    ∃ addr, getsockaddrarg_in env idx addr_ret ⟨stack, upvalue, tables⟩ =
      if argument.port < 0 ∨ argument.port > 0xffff then
        .ok none ⟨.literal "getsockaddrarg: port must be 0-65535." ::
          .integer argument.port :: .string argument.host :: stack, upvalue, tables⟩
      else
        .ok (some (setPort (setFamily addr AF_INET) (htons argument.port.toInt16.toUInt16),
            sizeof_sockaddr_in))
          ⟨.integer argument.port :: .string argument.host :: stack, upvalue, tables⟩ := by
  obtain ⟨result, addr, nonneg, resolved⟩ := resolves.settled
  exact ⟨addr, getsockaddrarg_in_resolved upvalue at_ fields nonneg resolved⟩

/-- **The branch for `AF_INET6`** on a table with all four fields and a host that is resolved to
an address. -/
theorem getsockaddrarg_in6_resolved (s : Sock) (upvalue : Value)
    (at_ : TableAt idx table stack tables)
    (fields : argument.In table) {flowinfo scope_id : Int64}
    (third : table.get (.integer 3) = .integer flowinfo)
    (fourth : table.get (.integer 4) = .integer scope_id) {result : Int} {addr : SockAddr}
    (nonneg : 0 ≤ result)
    (resolved : ∀ state, setipaddr env argument.host addr_ret sizeof_sockaddr_in6
      (.ofNat AF_INET6.toNat) state = .ok (result, addr) state) :
    ∃ below, getsockaddrarg_in6 env idx s addr_ret ⟨stack, upvalue, tables⟩ =
      if argument.port.toInt32 < 0 ∨ argument.port.toInt32 > 0xffff then
        .ok none ⟨.literal "getsockaddrarg: port must be 0-65535." :: below, upvalue, tables⟩
      else if flowinfo.toInt32 > 0xfffff then
        .ok none ⟨.literal "getsockaddrarg: flowinfo must be 0-1048575." :: below, upvalue, tables⟩
      else
        .ok (some (setScopeId (setFlowinfo (setPort
              (setFamily addr s.sock_family.toInt16.toUInt16)
              (htons argument.port.toInt32.toInt16.toUInt16)) (htonl flowinfo.toInt32.toUInt32))
            scope_id.toInt32.toUInt32, sizeof_sockaddr_in6))
          ⟨below, upvalue, tables⟩ := by
  have atPort := at_.push (.string argument.host)
  have atFlowinfo := atPort.push (.integer argument.port)
  have atScopeId := atFlowinfo.push (.integer flowinfo)
  refine ⟨.integer scope_id :: .integer flowinfo :: .integer argument.port ::
    .string argument.host :: stack, ?_⟩
  unfold getsockaddrarg_in6
  rw [bind_of_ok at_.istable, if_pos rfl]
  rw [bind_of_ok (lua_pushinteger_run _ _ _ _), bind_of_ok (at_.gettable fields.host),
    bind_of_ok (luaL_checkstring_top _ _)]
  rw [bind_of_ok (lua_pushinteger_run _ _ _ _), bind_of_ok (atPort.gettable fields.port),
    bind_of_ok (luaL_checkinteger_top _ _)]
  rw [bind_of_ok (lua_pushinteger_run _ _ _ _), bind_of_ok (atFlowinfo.gettable third),
    bind_of_ok (luaL_checkinteger_top _ _)]
  rw [bind_of_ok (lua_pushinteger_run _ _ _ _), bind_of_ok (atScopeId.gettable fourth),
    bind_of_ok (luaL_checkinteger_top _ _), bind_of_ok (resolved _)]
  dsimp only
  rw [if_neg (Int.not_lt.mpr nonneg)]
  split
  · rfl
  split
  · rfl
  · rfl

/-- The branch for `AF_INET6` on a table with all four fields and a host that is resolved. -/
theorem getsockaddrarg_in6_run (s : Sock) (upvalue : Value)
    (at_ : TableAt idx table stack tables)
    (fields : argument.In table) {flowinfo scope_id : Int64}
    (third : table.get (.integer 3) = .integer flowinfo)
    (fourth : table.get (.integer 4) = .integer scope_id)
    (resolves : Resolves env argument.host addr_ret sizeof_sockaddr_in6
      (.ofNat AF_INET6.toNat)) :
    ∃ addr below, getsockaddrarg_in6 env idx s addr_ret ⟨stack, upvalue, tables⟩ =
      if argument.port.toInt32 < 0 ∨ argument.port.toInt32 > 0xffff then
        .ok none ⟨.literal "getsockaddrarg: port must be 0-65535." :: below, upvalue, tables⟩
      else if flowinfo.toInt32 > 0xfffff then
        .ok none ⟨.literal "getsockaddrarg: flowinfo must be 0-1048575." :: below, upvalue, tables⟩
      else
        .ok (some (setScopeId (setFlowinfo (setPort addr
              (htons argument.port.toInt32.toInt16.toUInt16)) (htonl flowinfo.toInt32.toUInt32))
            scope_id.toInt32.toUInt32, sizeof_sockaddr_in6))
          ⟨below, upvalue, tables⟩ := by
  obtain ⟨result, addr, nonneg, resolved⟩ := resolves.settled
  exact ⟨_, getsockaddrarg_in6_resolved s upvalue at_ fields third fourth nonneg resolved⟩

/-- A missing field is no zero. -/
theorem getsockaddrarg_in6_missing (env : Resolver) (s : Sock) (addr_ret : SockAddr)
    (upvalue : Value) (at_ : TableAt idx table stack tables) (fields : argument.In table)
    (missing : argument.flowinfo = none ∨ argument.scope_id = none) :
    ∃ message after, getsockaddrarg_in6 env idx s addr_ret ⟨stack, upvalue, tables⟩ =
      .error (.argument (-1) message) after := by
  have third := fields.flowinfo
  have fourth := fields.scope_id
  have atPort := at_.push (.string argument.host)
  have atFlowinfo := atPort.push (.integer argument.port)
  unfold getsockaddrarg_in6
  rw [bind_of_ok at_.istable, if_pos rfl]
  rw [bind_of_ok (lua_pushinteger_run _ _ _ _), bind_of_ok (at_.gettable fields.host),
    bind_of_ok (luaL_checkstring_top _ _)]
  rw [bind_of_ok (lua_pushinteger_run _ _ _ _), bind_of_ok (atPort.gettable fields.port),
    bind_of_ok (luaL_checkinteger_top _ _)]
  rw [bind_of_ok (lua_pushinteger_run _ _ _ _), bind_of_ok (atFlowinfo.gettable third)]
  cases given : argument.flowinfo with
  | none =>
      rw [optional, bind_of_error (luaL_checkinteger_nil _)]
      exact ⟨_, _, rfl⟩
  | some flowinfo =>
      have absent : argument.scope_id = none := by
        rcases missing with none_ | none_
        · rw [given] at none_
          exact nomatch none_
        · exact none_
      have atScopeId := atFlowinfo.push (.integer flowinfo)
      rw [absent] at fourth
      rw [optional, bind_of_ok (luaL_checkinteger_top _ _)]
      rw [bind_of_ok (lua_pushinteger_run _ _ _ _), bind_of_ok (atScopeId.gettable fourth),
        optional, bind_of_error (luaL_checkinteger_nil _)]
      exact ⟨_, _, rfl⟩

end Runs

/-! ## Narrowing -/

/-- The low bits of a small number are the number. -/
theorem toNat_signExtend {n w : Nat} (narrower : n ≤ w) (bits : BitVec w)
    (nonneg : 0 ≤ bits.toInt) (small : bits.toInt < 2 ^ n) :
    ((bits.signExtend n).toNat : Int) = bits.toInt := by
  have value : bits.toInt = bits.toNat := by
    rw [BitVec.toInt_eq_toNat_cond] at nonneg ⊢
    have bound := bits.isLt
    split at nonneg
    · rename_i low
      rw [if_pos low]
    · omega
  rw [value] at small ⊢
  have low : bits.toNat < 2 ^ n := by exact_mod_cast small
  rw [BitVec.signExtend_eq_setWidth_of_le _ narrower, BitVec.toNat_setWidth, Nat.mod_eq_of_lt low]

/-- An integer that fits an `int` is converted to itself. -/
theorem toInt_toInt32 {n : Int64} (low : -2 ^ 31 ≤ n.toInt) (high : n.toInt < 2 ^ 31) :
    n.toInt32.toInt = n.toInt := by
  rw [Int64.toInt_toInt32, Int.bmod_eq_of_le (by omega) (by omega)]

/-- A port is a number of 16 bits. -/
def IsPort (n : Int) : Prop := 0 ≤ n ∧ n ≤ 65535

instance (n : Int) : Decidable (IsPort n) := inferInstanceAs (Decidable (_ ∧ _))

/-- A flow label has 20 bits. -/
def IsFlowinfo (n : Int) : Prop := 0 ≤ n ∧ n ≤ 0xfffff

instance (n : Int) : Decidable (IsFlowinfo n) := inferInstanceAs (Decidable (_ ∧ _))

theorem not_isPort_iff (port : Int64) : port < 0 ∨ port > 0xffff ↔ ¬ IsPort port.toInt := by
  have zero : (0 : Int64).toInt = 0 := rfl
  have top : (0xffff : Int64).toInt = 65535 := rfl
  unfold IsPort
  rw [GT.gt, Int64.lt_iff_toInt_lt, Int64.lt_iff_toInt_lt, zero, top]
  omega

theorem not_isPort_iff_int32 (port : Int32) : port < 0 ∨ port > 0xffff ↔ ¬ IsPort port.toInt := by
  have zero : (0 : Int32).toInt = 0 := rfl
  have top : (0xffff : Int32).toInt = 65535 := rfl
  unfold IsPort
  rw [GT.gt, Int32.lt_iff_toInt_lt, Int32.lt_iff_toInt_lt, zero, top]
  omega

theorem large_iff_int32 (flowinfo : Int32) : flowinfo > 0xfffff ↔ 0xfffff < flowinfo.toInt := by
  have top : (0xfffff : Int32).toInt = 0xfffff := rfl
  rw [GT.gt, Int32.lt_iff_toInt_lt, top]

/-- The port that the branch for `AF_INET` stores. -/
theorem ntohs_stored {port : Int64} (isPort : IsPort port.toInt) :
    ((ntohs (htons port.toInt16.toUInt16)).toNat : Int) = port.toInt := by
  obtain ⟨low, high⟩ := isPort
  rw [ntohs_htons]
  exact toNat_signExtend (by decide) port.toBitVec low (Int.lt_of_le_of_lt high (by decide))

/-- The port that the branch for `AF_INET6` stores. -/
theorem ntohs_stored_in6 {port : Int64} (isPort : IsPort port.toInt) :
    ((ntohs (htons port.toInt32.toInt16.toUInt16)).toNat : Int) = port.toInt := by
  obtain ⟨low, high⟩ := isPort
  have same : port.toInt32.toBitVec.toInt = port.toInt := toInt_toInt32 (by omega) (by omega)
  rw [ntohs_htons, ← same]
  exact toNat_signExtend (by decide) port.toInt32.toBitVec (by omega)
    (Int.lt_of_le_of_lt (same.trans_le high) (by decide))

theorem ntohl_stored {flowinfo : Int64} (isFlowinfo : IsFlowinfo flowinfo.toInt) :
    ((ntohl (htonl flowinfo.toInt32.toUInt32)).toNat : Int) = flowinfo.toInt := by
  obtain ⟨low, high⟩ := isFlowinfo
  rw [ntohl_htonl]
  exact toNat_signExtend (by decide) flowinfo.toBitVec low (Int.lt_of_le_of_lt high (by decide))

/-! ## Validation -/

/-- The error for the first field that is out of its range. A missing `flowinfo` is zero. -/
def AddressArgument.fault (family : Int32) (argument : AddressArgument) : Option String :=
  if ¬ IsPort argument.port.toInt then some "getsockaddrarg: port must be 0-65535."
  else if family = .ofNat AF_INET6.toNat ∧ ¬ IsFlowinfo (argument.flowinfo.getD 0).toInt then
    some "getsockaddrarg: flowinfo must be 0-1048575."
  else none

/-- A field out of its range is rejected: the result is 0, and the error is on top of the stack.
Other fields are accepted: the result is 1, and what is stored decodes back to them. -/
def Validates (env : Resolver) (idx : Int) (s : Sock) (addr_ret : SockAddr)
    (argument : AddressArgument) (state : LuaState) : Prop :=
  match argument.fault s.sock_family with
  | some message => ∃ after, getsockaddrarg env idx s addr_ret state = .ok none after ∧
      after.stack.head? = some (.literal message)
  | none => ∃ addr len after, getsockaddrarg env idx s addr_ret state =
      .ok (some (addr, len)) after ∧ (ntohs (sin_port addr)).toNat = argument.port.toInt ∧
        (s.sock_family = .ofNat AF_INET6.toNat →
          (ntohl (sin6_flowinfo addr)).toNat = (argument.flowinfo.getD 0).toInt)

/-- The family is `AF_INET`, or all fields are given and the conversion to `int` brings none of
them into its range or, for `flowinfo`, below it. -/
def AddressArgument.Fits (family : Int32) (argument : AddressArgument) : Prop :=
  family = .ofNat AF_INET.toNat ∨
    ∃ flowinfo scope_id, argument.flowinfo = some flowinfo ∧ argument.scope_id = some scope_id ∧
      if IsPort argument.port.toInt then
        IsFlowinfo flowinfo.toInt ∨ 0xfffff < flowinfo.toInt32.toInt
      else ¬ IsPort argument.port.toInt32.toInt

/-- The size of an address of the family. -/
def addressSize (family : Int32) : Nat :=
  if family = .ofNat AF_INET.toNat then sizeof_sockaddr_in else sizeof_sockaddr_in6

section Validation

variable {env : Resolver} {idx : Int} {table : Table} {stack : List Value} {upvalue : Value}
  {tables : List Table} {argument : AddressArgument} {addr_ret : SockAddr} {s : Sock}

theorem getsockaddrarg_of_inet (family : s.sock_family = .ofNat AF_INET.toNat) :
    getsockaddrarg env idx s addr_ret = getsockaddrarg_in env idx addr_ret :=
  if_pos family

theorem getsockaddrarg_of_inet6 (family : s.sock_family = .ofNat AF_INET6.toNat) :
    getsockaddrarg env idx s addr_ret = getsockaddrarg_in6 env idx s addr_ret := by
  have other : ¬ s.sock_family = .ofNat AF_INET.toNat := by
    rw [family]
    decide
  exact (if_neg other).trans (if_pos family)

theorem fault_of_not_isPort (family : Int32) (bad : ¬ IsPort argument.port.toInt) :
    argument.fault family = some "getsockaddrarg: port must be 0-65535." :=
  if_pos bad

theorem fault_of_isPort {family : Int32} (isPort : IsPort argument.port.toInt)
    (fine : family = .ofNat AF_INET6.toNat → IsFlowinfo (argument.flowinfo.getD 0).toInt) :
    argument.fault family = none := by
  unfold AddressArgument.fault
  rw [if_neg (not_not.mpr isPort), if_neg fun ⟨inet6, bad⟩ => bad (fine inet6)]

theorem fault_of_not_isFlowinfo {family : Int32} (isPort : IsPort argument.port.toInt)
    (inet6 : family = .ofNat AF_INET6.toNat)
    (bad : ¬ IsFlowinfo (argument.flowinfo.getD 0).toInt) :
    argument.fault family = some "getsockaddrarg: flowinfo must be 0-1048575." := by
  unfold AddressArgument.fault
  rw [if_neg (not_not.mpr isPort), if_pos ⟨inet6, bad⟩]

/-- **The branch for `AF_INET` validates every argument.** -/
theorem validates_in (at_ : TableAt idx table stack tables) (fields : argument.In table)
    (family : s.sock_family = .ofNat AF_INET.toNat)
    (resolves : Resolves env argument.host addr_ret sizeof_sockaddr_in (.ofNat AF_INET.toNat)) :
    Validates env idx s addr_ret argument ⟨stack, upvalue, tables⟩ := by
  obtain ⟨addr, ran⟩ := getsockaddrarg_in_run upvalue at_ fields resolves
  have other : s.sock_family ≠ .ofNat AF_INET6.toNat := by
    rw [family]
    decide
  unfold Validates
  rw [getsockaddrarg_of_inet family, ran]
  by_cases isPort : IsPort argument.port.toInt
  · have within : ¬ (argument.port < 0 ∨ argument.port > 0xffff) :=
      fun out => (not_isPort_iff _).mp out isPort
    rw [fault_of_isPort isPort fun inet6 => absurd inet6 other, if_neg within]
    refine ⟨_, _, _, rfl, ?_, fun inet6 => absurd inet6 other⟩
    rw [sin_port_setPort]
    exact ntohs_stored isPort
  · rw [fault_of_not_isPort _ isPort, if_pos ((not_isPort_iff _).mpr isPort)]
    exact ⟨_, rfl, rfl⟩

section Given

variable {flowinfo scope_id : Int64}

/-- What a call for `AF_INET6` with all four fields tests. -/
theorem getsockaddrarg_given (upvalue : Value) (at_ : TableAt idx table stack tables)
    (fields : argument.In table) (family : s.sock_family = .ofNat AF_INET6.toNat)
    (given : argument.flowinfo = some flowinfo) (scope : argument.scope_id = some scope_id)
    (resolves : Resolves env argument.host addr_ret sizeof_sockaddr_in6
      (.ofNat AF_INET6.toNat)) :
    ∃ addr below, getsockaddrarg env idx s addr_ret ⟨stack, upvalue, tables⟩ =
      if ¬ IsPort argument.port.toInt32.toInt then
        .ok none ⟨.literal "getsockaddrarg: port must be 0-65535." :: below, upvalue, tables⟩
      else if 0xfffff < flowinfo.toInt32.toInt then
        .ok none ⟨.literal "getsockaddrarg: flowinfo must be 0-1048575." :: below, upvalue, tables⟩
      else
        .ok (some (setScopeId (setFlowinfo (setPort addr
              (htons argument.port.toInt32.toInt16.toUInt16)) (htonl flowinfo.toInt32.toUInt32))
            scope_id.toInt32.toUInt32, sizeof_sockaddr_in6))
          ⟨below, upvalue, tables⟩ := by
  have third : table.get (.integer 3) = .integer flowinfo := by rw [fields.flowinfo, given]; rfl
  have fourth : table.get (.integer 4) = .integer scope_id := by rw [fields.scope_id, scope]; rfl
  obtain ⟨addr, below, ran⟩ := getsockaddrarg_in6_run s upvalue at_ fields third fourth resolves
  simp only [not_isPort_iff_int32, large_iff_int32] at ran
  exact ⟨addr, below, (congrFun (getsockaddrarg_of_inet6 family) _).trans ran⟩

/-- The branch for `AF_INET6` on a port. -/
theorem validates_port_iff (at_ : TableAt idx table stack tables) (fields : argument.In table)
    (family : s.sock_family = .ofNat AF_INET6.toNat)
    (given : argument.flowinfo = some flowinfo) (scope : argument.scope_id = some scope_id)
    (resolves : Resolves env argument.host addr_ret sizeof_sockaddr_in6
      (.ofNat AF_INET6.toNat)) (isPort : IsPort argument.port.toInt) :
    Validates env idx s addr_ret argument ⟨stack, upvalue, tables⟩ ↔
      IsFlowinfo flowinfo.toInt ∨ 0xfffff < flowinfo.toInt32.toInt := by
  obtain ⟨addr, below, ran⟩ :=
    getsockaddrarg_given upvalue at_ fields family given scope resolves
  have default_ : argument.flowinfo.getD 0 = flowinfo := by rw [given]; rfl
  have same : argument.port.toInt32.toInt = argument.port.toInt :=
    toInt_toInt32 (by have low := isPort.1; omega) (by have high := isPort.2; omega)
  unfold Validates
  rw [ran, same, if_neg (not_not.mpr isPort)]
  by_cases isFlowinfo : IsFlowinfo flowinfo.toInt
  · have low := isFlowinfo.1
    have high := isFlowinfo.2
    have small : ¬ 0xfffff < flowinfo.toInt32.toInt := by
      rw [toInt_toInt32 (by omega) (by omega)]
      omega
    rw [fault_of_isPort isPort fun _ => by rwa [default_], if_neg small]
    refine ⟨fun _ => .inl isFlowinfo, fun _ => ⟨_, _, _, rfl, ?_, fun _ => ?_⟩⟩
    · rw [sin_port_setScopeId, sin_port_setFlowinfo, sin_port_setPort]
      exact ntohs_stored_in6 isPort
    · rw [sin6_flowinfo_setScopeId, sin6_flowinfo_setFlowinfo, default_]
      exact ntohl_stored isFlowinfo
  · rw [fault_of_not_isFlowinfo isPort family (by rwa [default_])]
    by_cases large : 0xfffff < flowinfo.toInt32.toInt
    · rw [if_pos large]
      exact ⟨fun _ => .inr large, fun _ => ⟨_, rfl, rfl⟩⟩
    · -- a negative `flowinfo`, or one whose low bits are small, is accepted
      rw [if_neg large]
      refine ⟨?_, fun fits => absurd fits (not_or.mpr ⟨isFlowinfo, large⟩)⟩
      rintro ⟨after, accepted, _⟩
      cases accepted

/-- The branch for `AF_INET6` on what is no port. -/
theorem validates_not_port_iff (at_ : TableAt idx table stack tables)
    (fields : argument.In table) (family : s.sock_family = .ofNat AF_INET6.toNat)
    (given : argument.flowinfo = some flowinfo) (scope : argument.scope_id = some scope_id)
    (resolves : Resolves env argument.host addr_ret sizeof_sockaddr_in6
      (.ofNat AF_INET6.toNat)) (notPort : ¬ IsPort argument.port.toInt) :
    Validates env idx s addr_ret argument ⟨stack, upvalue, tables⟩ ↔
      ¬ IsPort argument.port.toInt32.toInt := by
  obtain ⟨addr, below, ran⟩ :=
    getsockaddrarg_given upvalue at_ fields family given scope resolves
  unfold Validates
  rw [ran, fault_of_not_isPort _ notPort]
  by_cases narrow : IsPort argument.port.toInt32.toInt
  · -- the port that is tested is another one
    rw [if_neg (not_not.mpr narrow)]
    refine ⟨?_, fun out => absurd narrow out⟩
    rintro ⟨after, rejected, top⟩
    by_cases large : 0xfffff < flowinfo.toInt32.toInt
    · rw [if_pos large] at rejected
      cases rejected
      exact absurd (Value.literal_inj (Option.some.inj top)) (by decide)
    · rw [if_neg large] at rejected
      cases rejected
  · rw [if_pos narrow]
    exact ⟨fun _ => narrow, fun _ => ⟨_, rfl, rfl⟩⟩

/-- **The branch for `AF_INET6` on a table with all four fields.** -/
theorem validates_in6_iff (at_ : TableAt idx table stack tables) (fields : argument.In table)
    (family : s.sock_family = .ofNat AF_INET6.toNat)
    (given : argument.flowinfo = some flowinfo) (scope : argument.scope_id = some scope_id)
    (resolves : Resolves env argument.host addr_ret sizeof_sockaddr_in6
      (.ofNat AF_INET6.toNat)) :
    Validates env idx s addr_ret argument ⟨stack, upvalue, tables⟩ ↔
      if IsPort argument.port.toInt then
        IsFlowinfo flowinfo.toInt ∨ 0xfffff < flowinfo.toInt32.toInt
      else ¬ IsPort argument.port.toInt32.toInt := by
  by_cases isPort : IsPort argument.port.toInt
  · rw [if_pos isPort]
    exact validates_port_iff at_ fields family given scope resolves isPort
  · rw [if_neg isPort]
    exact validates_not_port_iff at_ fields family given scope resolves isPort

end Given

/-- Where fields are validated, the call returns. -/
theorem Validates.returns {state after : LuaState} {failure : Failure}
    (validates : Validates env idx s addr_ret argument state) :
    getsockaddrarg env idx s addr_ret state ≠ .error failure after := by
  intro failed
  unfold Validates at validates
  rw [failed] at validates
  split at validates
  · obtain ⟨_, returned, _⟩ := validates
    cases returned
  · obtain ⟨_, _, _, returned, _⟩ := validates
    cases returned

/-- **A table is validated if and only if** the family is `AF_INET`, or both further fields are
given and the conversions to `int` change no answer: neither a port nor a flow label that is out
of its range comes to pass for one within it. -/
theorem validates_iff (env : Resolver) (s : Sock) (addr_ret : SockAddr) (state : LuaState)
    (at_ : TableAt idx table state.stack state.tables) (fields : argument.In table)
    (family : s.sock_family = .ofNat AF_INET.toNat ∨ s.sock_family = .ofNat AF_INET6.toNat)
    (resolves : Resolves env argument.host addr_ret (addressSize s.sock_family) s.sock_family) :
    Validates env idx s addr_ret argument state ↔ argument.Fits s.sock_family := by
  obtain ⟨stack, upvalue, tables⟩ := state
  unfold AddressArgument.Fits
  rcases family with inet | inet6
  · rw [inet] at resolves
    exact ⟨fun _ => .inl inet, fun _ => validates_in at_ fields inet resolves⟩
  have other : ¬ s.sock_family = .ofNat AF_INET.toNat := by
    rw [inet6]
    decide
  rw [or_iff_right other]
  have missing (absent : argument.flowinfo = none ∨ argument.scope_id = none) :
      ¬ Validates env idx s addr_ret argument ⟨stack, upvalue, tables⟩ := by
    intro validates
    obtain ⟨message, after, failed⟩ :=
      getsockaddrarg_in6_missing env s addr_ret upvalue at_ fields absent
    exact validates.returns ((congrFun (getsockaddrarg_of_inet6 inet6) _).trans failed)
  cases given : argument.flowinfo with
  | none =>
      refine ⟨fun validates => absurd validates (missing (.inl given)), ?_⟩
      rintro ⟨_, _, present, _⟩
      cases present
  | some flowinfo =>
      cases scope : argument.scope_id with
      | none =>
          refine ⟨fun validates => absurd validates (missing (.inr scope)), ?_⟩
          rintro ⟨_, _, _, present, _⟩
          cases present
      | some scope_id =>
          unfold addressSize at resolves
          rw [if_neg other, inet6] at resolves
          rw [validates_in6_iff at_ fields inet6 given scope resolves]
          constructor
          · intro fits
            exact ⟨flowinfo, scope_id, rfl, rfl, fits⟩
          · rintro ⟨_, _, ⟨⟩, ⟨⟩, fits⟩
            exact fits

end Validation

/-- A resolver that knows the wildcard address of `AF_INET6`, which is the empty host. -/
def wildcard : Resolver where
  getaddrinfo := fun node _ _ _ _ =>
    match node with
    | none => .ok { ai_family := 23, ai_addr := 23 :: List.replicate 27 0, ai_next := false }
    | some _ => .error 11001
  overflow := fun _ => 0
  conversions := { numeral := fun _ => none, typename := fun _ => "nil" }

/-- A socket of `AF_INET6`. -/
def socket6 : Sock where
  sock_fd := 3
  sock_family := 23
  sock_type := 1
  sock_proto := 6

/-- The empty host with a port and a flow label. -/
def anyHost (port flowinfo : Int64) : AddressArgument where
  host := []
  port := port
  flowinfo := some flowinfo
  scope_id := some 0

/-- The table of that argument, second on the stack. -/
def withAnyHost (port flowinfo : Int64) : LuaState where
  stack := [.table 0, .object 0]
  upvalue := .nil
  tables := [[(.integer 1, .string []), (.integer 2, .integer port),
    (.integer 3, .integer flowinfo), (.integer 4, .integer 0)]]

theorem resolves_anyHost :
    Resolves wildcard [] (fun _ => 0) sizeof_sockaddr_in6 (.ofNat AF_INET6.toNat) :=
  ⟨⟨[], .nil, []⟩, 16, _, _, by decide, rfl⟩

/-- Port 80 and the flow label 5. -/
theorem validates_iff_port80 :
    Validates wildcard 2 socket6 (fun _ => 0) (anyHost 80 5) (withAnyHost 80 5) := by
  have fits : (anyHost 80 5).Fits socket6.sock_family :=
    .inr ⟨5, 0, rfl, rfl, by decide⟩
  exact (validates_iff wildcard socket6 (fun _ => 0) (withAnyHost 80 5)
    ⟨by decide, 0, rfl, rfl⟩ ⟨rfl, rfl, rfl, rfl⟩ (.inr rfl) resolves_anyHost).mpr fits

/-- **The port `2 ^ 32 + 80` and the flow label -1** are accepted, the port as 80. -/
theorem not_validates_wide :
    (∃ addr after, getsockaddrarg wildcard 2 socket6 (fun _ => 0) (withAnyHost 4294967376 0) =
        .ok (some (addr, sizeof_sockaddr_in6)) after ∧ ntohs (sin_port addr) = 80) ∧
      ¬ Validates wildcard 2 socket6 (fun _ => 0) (anyHost 4294967376 0)
        (withAnyHost 4294967376 0) ∧
      ¬ Validates wildcard 2 socket6 (fun _ => 0) (anyHost 80 (-1)) (withAnyHost 80 (-1)) := by
  refine ⟨⟨_, _, rfl, by decide⟩, fun validates => ?_, fun validates => ?_⟩
  · have fits := (validates_in6_iff ⟨by decide, 0, rfl, rfl⟩ ⟨rfl, rfl, rfl, rfl⟩ rfl rfl rfl
      resolves_anyHost).mp validates
    revert fits
    decide
  · have fits := (validates_in6_iff ⟨by decide, 0, rfl, rfl⟩ ⟨rfl, rfl, rfl, rfl⟩ rfl rfl rfl
      resolves_anyHost).mp validates
    revert fits
    decide

end Socket

end EasyLua
