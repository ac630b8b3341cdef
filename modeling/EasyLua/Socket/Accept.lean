import EasyLua.Socket.LuaStack

/-!
# The address that `accept` returns

`makesockaddr` builds the Lua value of a socket address and should leave exactly this value on
the stack, because `sock_accept` returns the two topmost values. What the operating system
answers, and what the class makes of a descriptor, is given.
-/

namespace EasyLua

namespace Socket

/-- The fields of a `sockaddr` that are read. The port of a `sockaddr_in` and that of a
`sockaddr_in6` are in one place, and `sa_data` is what stands in memory from there on. -/
structure Sockaddr where
  sa_family : UInt16
  sin_port : UInt16
  sin6_flowinfo : UInt32
  sin6_scope_id : UInt32
  sa_data : List UInt8

/-- The fields of a `PySocketSockObject` that `sock_accept` reads. -/
structure Sock where
  sock_fd : Int64
  sock_family : Int32
  sock_type : Int32
  sock_proto : Int32

/-- How the loop around `accept` ends. -/
inductive Accepted
  | timedOut
  /-- With the error object of `errorhandler`. -/
  | failed (error : Value)
  | accepted (newfd : Int64) (addrbuf : Sockaddr) (addrlen : Int32)

/-- The operating system and the classes. -/
structure Environment where
  getnameinfo : Sockaddr → Nat → Except Int32 (List UInt8)
  touserdata : Value → Option Sock
  isInstance : Value → Value → Bool
  isSelectable : Sock → Bool
  accept : Sock → Nat → Accepted
  /-- A field of the metatable of a value; nil when there is none. -/
  metafield : Value → String → Value
  /-- The result of a call, and the tables after it. -/
  call : Value → List Value → List Table → Except Value (Value × List Table)

def AF_INET : UInt16 := 2

def AF_INET6 : UInt16 := 23

def sizeof_sockaddr_in : Nat := 16

def sizeof_sockaddr_in6 : Nat := 28

def sizeof_sa_data : Nat := 14

/-- `ntohs` of a machine with its low byte first. -/
def ntohs (netshort : UInt16) : UInt16 := netshort <<< 8 ||| netshort >>> 8

/-- `ntohl` of a machine with its low byte first. -/
def ntohl (netlong : UInt32) : UInt32 :=
  let second : UInt32 := 0xff00
  netlong <<< 24 ||| (netlong &&& second) <<< 8 ||| (netlong >>> 8 &&& second) ||| netlong >>> 24

/-- `lua_pushstring` of memory that is no Lua string: up to the first zero. -/
def cString (bytes : List UInt8) : List UInt8 := bytes.takeWhile (· ≠ 0)

/-- `createErrorObj`. -/
def createErrorObj (sExceptTypeName sErrorMsg : String) (iCode : Int32) : LuaM Unit :=
  push (.errorObj sExceptTypeName sErrorMsg iCode)

/-- `set_gaierror`. -/
def set_gaierror (error : Int32) : LuaM Unit :=
  createErrorObj "cSocketGaiError" "getaddrinfo failed" error

section Functions

variable (env : Environment)

/-- `makeipaddr`. -/
def makeipaddr (addr : Sockaddr) (addrlen : Nat) : LuaM Bool :=
  match env.getnameinfo addr addrlen with
  | .error error => do
      set_gaierror error
      return false
  | .ok buf => do
      lua_pushstring buf
      return true

/-- The branch of `makesockaddr` for `AF_INET`. -/
def makesockaddr_in (addr : Sockaddr) : LuaM Bool := do
  let ok ← makeipaddr env addr sizeof_sockaddr_in
  if ok then
    let ADDR_OBJ_INDEX ← lua_gettop
    lua_createtable
    let TABLE_INDEX ← lua_gettop
    lua_pushinteger 1
    lua_pushvalue ADDR_OBJ_INDEX
    lua_settable TABLE_INDEX
    lua_pushinteger 2
    lua_pushinteger (Int64.ofNat (ntohs addr.sin_port).toNat)
    lua_settable TABLE_INDEX
    lua_remove ADDR_OBJ_INDEX
    return true
  else return false

/-- The branch for `AF_INET6`. -/
def makesockaddr_in6 (addr : Sockaddr) : LuaM Bool := do
  let ok ← makeipaddr env addr sizeof_sockaddr_in6
  if ok then
    lua_createtable
    lua_pushinteger 1
    lua_pushvalue (-3)
    lua_settable (-3)
    lua_pushinteger 2
    lua_pushinteger (Int64.ofNat (ntohs addr.sin_port).toNat)
    lua_settable (-3)
    lua_pushinteger 3
    lua_pushinteger (Int64.ofNat (ntohl addr.sin6_flowinfo).toNat)
    lua_settable (-3)
    lua_pushinteger 4
    lua_pushinteger (Int64.ofNat addr.sin6_scope_id.toNat)
    lua_settable (-3)
  return ok

/-- The branch for a family that is not known. -/
def makesockaddr_default (addr : Sockaddr) : LuaM Bool := do
  lua_createtable
  lua_pushinteger 1
  lua_pushinteger (Int64.ofNat addr.sa_family.toNat)
  lua_settable (-3)
  lua_pushinteger 2
  lua_pushstring (cString addr.sa_data)
  lua_settable (-3)
  lua_pushinteger 3
  lua_pushinteger (Int64.ofNat sizeof_sa_data)
  lua_settable (-3)
  return true

/-- `makesockaddr`, with `ENABLE_IPV6`. -/
def makesockaddr (addr : Sockaddr) (addrlen : Int32) : LuaM Bool :=
  if addrlen = 0 then do
    push (.literal "no address")
    return true
  else if addr.sa_family = AF_INET then makesockaddr_in env addr
  else if addr.sa_family = AF_INET6 then makesockaddr_in6 env addr
  else makesockaddr_default addr

/-- `luaL_getmetafield`, which pushes nothing when there is no field. -/
def luaL_getmetafield (idx : Int) (e : String) : LuaM Bool := do
  let value ← index2addr idx
  let field := env.metafield value e
  if field = .nil then return false
  else
    push field
    return true

/-- `lua_call` with one result. -/
def lua_call (nargs : Nat) : LuaM Unit := fun state =>
  match state.stack[nargs]? with
  | some function =>
      match env.call function (state.stack.take nargs).reverse state.tables with
      | .ok (result, tables) =>
          .ok () { state with stack := result :: state.stack.drop (nargs + 1), tables }
      | .error error => .error (.lua error) state
  | none => .error .undefined state

/-- `new_sockobject`. -/
def new_sockobject (fd : Int64) (family type proto : Int32) : LuaM Bool := do
  let CLASS := lua_upvalueindex 1
  let found ← luaL_getmetafield env CLASS "__call"
  if found then
    lua_pushvalue CLASS
    lua_pushinteger family.toInt64
    lua_pushinteger type.toInt64
    lua_pushinteger proto.toInt64
    lua_pushinteger fd
    lua_call env 5
    return true
  else
    push (.literal "类没有元表或元表没有__call方法")
    return false

/-- `getsockaddrlen`. -/
def getsockaddrlen (s : Sock) : LuaM (Option Nat) :=
  if s.sock_family = Int32.ofNat AF_INET.toNat then return some sizeof_sockaddr_in
  else if s.sock_family = Int32.ofNat AF_INET6.toNat then return some sizeof_sockaddr_in6
  else do
    createErrorObj "cSocketError" "getsockaddrlen: bad family" 0
    return none

/-- `lua_touserdata`, which is null where there is no value. -/
def lua_touserdata (idx : Int) : LuaM (Option Sock) := fun state =>
  .ok ((IndexedStack.slot state.stack idx).bind env.touserdata) state

/-- `checkInstance`. -/
def checkInstance (objIdx clsIdx : Int) : LuaM Unit := do
  let obj ← index2addr objIdx
  let cls ← index2addr clsIdx
  if env.isInstance obj cls then return ()
  else throw .notInstance

/-- `sock_accept` from the new descriptor on. -/
def sock_accepted (s : Sock) (newfd : Int64) (addrbuf : Sockaddr) (addrlen : Int32) :
    LuaM (List Value) := do
  let ret ← new_sockobject env newfd s.sock_family s.sock_type s.sock_proto
  if ret then
    let ok ← makesockaddr env addrbuf addrlen
    if ok then returns 2
    else lua_error
  else lua_error

/-- `sock_accept`. -/
def sock_accept : LuaM (List Value) := do
  match ← lua_touserdata env 1 with
  | none => throw (.argument 1 "invalid socket")
  | some s => do
      checkInstance env 1 (lua_upvalueindex 1)
      match ← getsockaddrlen s with
      | none => lua_error
      | some addrlen =>
          if env.isSelectable s then
            match env.accept s addrlen with
            | .timedOut => throw (.error "timed out")
            | .failed error => do
                push error
                lua_error
            | .accepted newfd addrbuf addrlen => sock_accepted env s newfd addrbuf addrlen
          else
            createErrorObj "cSocketError" "unable to select on socket" 0
            lua_error

end Functions

/-! ## Addresses -/

/-- A table with these values at 1, 2 and so on. -/
def sequence (values : List Value) : Table :=
  values.zipIdx.map fun entry => (.integer (Int64.ofNat (entry.2 + 1)), entry.1)

/-- What the address of a family consists of. -/
def fields (env : Environment) (addr : Sockaddr) : Except Int32 (List Value) :=
  if addr.sa_family = AF_INET then
    (env.getnameinfo addr sizeof_sockaddr_in).map fun buf =>
      [.string buf, .integer (Int64.ofNat (ntohs addr.sin_port).toNat)]
  else if addr.sa_family = AF_INET6 then
    (env.getnameinfo addr sizeof_sockaddr_in6).map fun buf =>
      [.string buf, .integer (Int64.ofNat (ntohs addr.sin_port).toNat),
        .integer (Int64.ofNat (ntohl addr.sin6_flowinfo).toNat),
        .integer (Int64.ofNat addr.sin6_scope_id.toNat)]
  else
    .ok [.integer (Int64.ofNat addr.sa_family.toNat), .string (cString addr.sa_data),
      .integer (Int64.ofNat sizeof_sa_data)]

/-- The value is the address object of a socket address. -/
def IsAddress (env : Environment) (tables : List Table) (addr : Sockaddr) (addrlen : Int32)
    (value : Value) : Prop :=
  if addrlen = 0 then value = .literal "no address"
  else ∃ ref values, fields env addr = .ok values ∧ value = .table ref ∧
    tables[ref]? = some (sequence values)

/-- There is no address, or its family is not known, or it has a name. -/
def Named (env : Environment) (addr : Sockaddr) (addrlen : Int32) : Prop :=
  addrlen = 0 ∨ ∃ values, fields env addr = .ok values

/-- `makesockaddr` succeeds for an address that has a name. When it does, it has pushed one value,
the address object, and has left what was there before. -/
def OneAddress (env : Environment) (addr : Sockaddr) (addrlen : Int32) (state : LuaState) :
    Prop :=
  (Named env addr addrlen → ∃ after, makesockaddr env addr addrlen state = .ok true after) ∧
    ∀ after, makesockaddr env addr addrlen state = .ok true after →
      ∃ address new, after = ⟨address :: state.stack, state.upvalue, state.tables ++ new⟩ ∧
        IsAddress env after.tables addr addrlen address

/-- There is no address, or it is not one of `AF_INET6` that has a name. -/
def Single (env : Environment) (addr : Sockaddr) (addrlen : Int32) : Prop :=
  addrlen = 0 ∨ addr.sa_family ≠ AF_INET6 ∨
    ∀ buf, env.getnameinfo addr sizeof_sockaddr_in6 ≠ .ok buf

section Runs

variable {env : Environment} {addr : Sockaddr} {addrlen : Int32} {buf : List UInt8}
  {below : List Value} {key value : Value} {entries : Table}
  (stack : List Value) (upvalue : Value) (tables : List Table)

theorem makeipaddr_ok {size : Nat} (named : env.getnameinfo addr size = .ok buf) :
    makeipaddr env addr size ⟨stack, upvalue, tables⟩ =
      .ok true ⟨.string buf :: stack, upvalue, tables⟩ := by
  unfold makeipaddr
  rw [named]
  rfl

theorem makeipaddr_error {size : Nat} {error : Int32}
    (unnamed : env.getnameinfo addr size = .error error) :
    ∃ after, makeipaddr env addr size ⟨stack, upvalue, tables⟩ = .ok false after := by
  unfold makeipaddr
  rw [unnamed]
  exact ⟨_, rfl⟩

/-- **The branch for `AF_INET`** pushes the table and removes the string of the address. -/
theorem makesockaddr_in_run (named : env.getnameinfo addr sizeof_sockaddr_in = .ok buf) :
    makesockaddr_in env addr ⟨stack, upvalue, tables⟩ =
      .ok true ⟨.table tables.length :: stack, upvalue,
        tables ++ [sequence [.string buf, .integer (Int64.ofNat (ntohs addr.sin_port).toNat)]]⟩ := by
  unfold makesockaddr_in
  rw [bind_of_ok (makeipaddr_ok stack upvalue tables named), if_pos rfl]
  rw [bind_of_ok (lua_gettop_run _ _ _), bind_of_ok (lua_createtable_run _ _ _),
    bind_of_ok (lua_gettop_run _ _ _)]
  rw [bind_of_ok (lua_pushinteger_run _ _ _ _), bind_of_ok lua_pushvalue_absolute,
    bind_of_ok lua_settable_absolute]
  rw [bind_of_ok (lua_pushinteger_run _ _ _ _), bind_of_ok (lua_pushinteger_run _ _ _ _),
    bind_of_ok lua_settable_absolute]
  rw [bind_of_ok lua_remove_absolute]
  rfl

/-- **The branch for `AF_INET6`** pushes the table and leaves the string of the address below
it. -/
theorem makesockaddr_in6_run (named : env.getnameinfo addr sizeof_sockaddr_in6 = .ok buf) :
    makesockaddr_in6 env addr ⟨stack, upvalue, tables⟩ =
      .ok true ⟨.table tables.length :: .string buf :: stack, upvalue,
        tables ++ [sequence [.string buf, .integer (Int64.ofNat (ntohs addr.sin_port).toNat),
          .integer (Int64.ofNat (ntohl addr.sin6_flowinfo).toNat),
          .integer (Int64.ofNat addr.sin6_scope_id.toNat)]]⟩ := by
  unfold makesockaddr_in6
  rw [bind_of_ok (makeipaddr_ok stack upvalue tables named), if_pos rfl]
  rw [bind_of_ok (lua_createtable_run _ _ _)]
  rw [bind_of_ok (lua_pushinteger_run _ _ _ _), bind_of_ok lua_pushvalue_relative,
    bind_of_ok lua_settable_relative]
  rw [bind_of_ok (lua_pushinteger_run _ _ _ _), bind_of_ok (lua_pushinteger_run _ _ _ _),
    bind_of_ok lua_settable_relative]
  rw [bind_of_ok (lua_pushinteger_run _ _ _ _), bind_of_ok (lua_pushinteger_run _ _ _ _),
    bind_of_ok lua_settable_relative]
  rw [bind_of_ok (lua_pushinteger_run _ _ _ _), bind_of_ok (lua_pushinteger_run _ _ _ _),
    bind_of_ok lua_settable_relative]
  rfl

theorem makesockaddr_default_run (addr : Sockaddr) :
    makesockaddr_default addr ⟨stack, upvalue, tables⟩ =
      .ok true ⟨.table tables.length :: stack, upvalue,
        tables ++ [sequence [.integer (Int64.ofNat addr.sa_family.toNat),
          .string (cString addr.sa_data), .integer (Int64.ofNat sizeof_sa_data)]]⟩ := by
  unfold makesockaddr_default
  rw [bind_of_ok (lua_createtable_run _ _ _)]
  rw [bind_of_ok (lua_pushinteger_run _ _ _ _), bind_of_ok (lua_pushinteger_run _ _ _ _),
    bind_of_ok lua_settable_relative]
  rw [bind_of_ok (lua_pushinteger_run _ _ _ _), bind_of_ok (lua_pushstring_run _ _ _ _),
    bind_of_ok lua_settable_relative]
  rw [bind_of_ok (lua_pushinteger_run _ _ _ _), bind_of_ok (lua_pushinteger_run _ _ _ _),
    bind_of_ok lua_settable_relative]
  rfl

/-- A branch fails when the address has no name. -/
theorem makesockaddr_in_unnamed {error : Int32}
    (unnamed : env.getnameinfo addr sizeof_sockaddr_in = .error error) :
    ∃ after, makesockaddr_in env addr ⟨stack, upvalue, tables⟩ = .ok false after := by
  obtain ⟨after, failed⟩ := makeipaddr_error stack upvalue tables unnamed
  refine ⟨after, ?_⟩
  unfold makesockaddr_in
  rw [bind_of_ok failed]
  rfl

theorem makesockaddr_in6_unnamed {error : Int32}
    (unnamed : env.getnameinfo addr sizeof_sockaddr_in6 = .error error) :
    ∃ after, makesockaddr_in6 env addr ⟨stack, upvalue, tables⟩ = .ok false after := by
  obtain ⟨after, failed⟩ := makeipaddr_error stack upvalue tables unnamed
  refine ⟨after, ?_⟩
  unfold makesockaddr_in6
  rw [bind_of_ok failed]
  rfl

/-- The table that was made last is the address object. -/
theorem isAddress_table {values : List Value} (some_ : addrlen ≠ 0)
    (parts : fields env addr = .ok values) :
    IsAddress env (tables ++ [sequence values]) addr addrlen (.table tables.length) := by
  unfold IsAddress
  rw [if_neg some_]
  exact ⟨tables.length, values, parts, rfl, by simp⟩

/-- **The net effect of `makesockaddr`** on an address that is no named one of `AF_INET6`. -/
theorem makesockaddr_single (single : Single env addr addrlen) :
    (∃ after, makesockaddr env addr addrlen ⟨stack, upvalue, tables⟩ = .ok false after) ∨
    ∃ address new, makesockaddr env addr addrlen ⟨stack, upvalue, tables⟩ =
        .ok true ⟨address :: stack, upvalue, tables ++ new⟩ ∧
      IsAddress env (tables ++ new) addr addrlen address := by
  unfold makesockaddr
  by_cases none_ : addrlen = 0
  · rw [if_pos none_]
    refine Or.inr ⟨.literal "no address", [], ?_, ?_⟩
    · rw [bind_of_ok (push_run _ _ _ _), List.append_nil]
      rfl
    · unfold IsAddress
      rw [if_pos none_]
  rw [if_neg none_]
  by_cases inet : addr.sa_family = AF_INET
  · rw [if_pos inet]
    cases named : env.getnameinfo addr sizeof_sockaddr_in with
    | error error => exact Or.inl (makesockaddr_in_unnamed stack upvalue tables named)
    | ok buf =>
        refine Or.inr ⟨_, _, makesockaddr_in_run stack upvalue tables named, ?_⟩
        apply isAddress_table tables none_
        unfold fields
        rw [if_pos inet, named]
        rfl
  rw [if_neg inet]
  by_cases inet6 : addr.sa_family = AF_INET6
  · rw [if_pos inet6]
    cases named : env.getnameinfo addr sizeof_sockaddr_in6 with
    | error error => exact Or.inl (makesockaddr_in6_unnamed stack upvalue tables named)
    | ok buf =>
        rcases single with zero | other | unnamed
        · exact absurd zero none_
        · exact absurd inet6 other
        · exact absurd named (unnamed buf)
  · rw [if_neg inet6]
    refine Or.inr ⟨_, _, makesockaddr_default_run stack upvalue tables addr, ?_⟩
    apply isAddress_table tables none_
    unfold fields
    rw [if_neg inet, if_neg inet6]

/-- **The net effect on a named address of `AF_INET6`** is two values. -/
theorem makesockaddr_doubled (doubled : ¬ Single env addr addrlen) :
    ∃ buf entries, makesockaddr env addr addrlen ⟨stack, upvalue, tables⟩ =
      .ok true ⟨.table tables.length :: .string buf :: stack, upvalue, tables ++ [entries]⟩ := by
  unfold Single at doubled
  push Not at doubled
  obtain ⟨some_, inet6, buf, named⟩ := doubled
  have notInet : addr.sa_family ≠ AF_INET := by
    rw [inet6]
    decide
  refine ⟨buf, _, Eq.trans ?_ (makesockaddr_in6_run stack upvalue tables named)⟩
  unfold makesockaddr
  rw [if_neg some_, if_neg notInet, if_pos inet6]

/-- `makesockaddr` fails only when it asks for a name that there is not. -/
theorem makesockaddr_named (named : Named env addr addrlen) (state : LuaState) :
    ∃ after, makesockaddr env addr addrlen state = .ok true after := by
  obtain ⟨stack, upvalue, tables⟩ := state
  unfold makesockaddr
  rcases named with none_ | ⟨values, parts⟩
  · rw [if_pos none_]
    exact ⟨_, rfl⟩
  · unfold fields at parts
    split
    · exact ⟨_, rfl⟩
    · split
      · rename_i inet
        rw [if_pos inet] at parts
        cases named : env.getnameinfo addr sizeof_sockaddr_in with
        | error error =>
            rw [named] at parts
            cases parts
        | ok buf => exact ⟨_, makesockaddr_in_run stack upvalue tables named⟩
      · rename_i notInet
        rw [if_neg notInet] at parts
        split
        · rename_i inet6
          rw [if_pos inet6] at parts
          cases named : env.getnameinfo addr sizeof_sockaddr_in6 with
          | error error =>
              rw [named] at parts
              cases parts
          | ok buf => exact ⟨_, makesockaddr_in6_run stack upvalue tables named⟩
        · exact ⟨_, makesockaddr_default_run stack upvalue tables addr⟩

theorem oneAddress_iff (state : LuaState) :
    OneAddress env addr addrlen state ↔ Single env addr addrlen := by
  obtain ⟨stack, upvalue, tables⟩ := state
  constructor
  · rintro ⟨_, one⟩
    by_contra doubled
    obtain ⟨buf, entries, ran⟩ := makesockaddr_doubled stack upvalue tables doubled
    obtain ⟨address, new, same, _⟩ := one _ ran
    have heights := congrArg (fun state => state.stack.length) same
    simp at heights
  · intro single
    refine ⟨fun named => makesockaddr_named named _, fun after ran => ?_⟩
    rcases makesockaddr_single stack upvalue tables single with
      ⟨failed, fails⟩ | ⟨address, new, succeeds, isAddress⟩
    · cases fails.symm.trans ran
    · cases succeeds.symm.trans ran
      exact ⟨address, new, rfl, isAddress⟩

end Runs

/-! ## `sock_accept` -/

/-- A connection that arrives at a socket: the socket and its value, the address, the new
descriptor, and the object that the class makes of it, with the tables after that. -/
structure Connection where
  self : Value
  s : Sock
  addrlen : Nat
  newfd : Int64
  addr : Sockaddr
  length : Int32
  object : Nat
  tables : List Table

/-- A listening socket gets the connection, and the `__call` of its class returns the new
object. -/
structure Listening (env : Environment) (state : LuaState) (connection : Connection) : Prop where
  self : IndexedStack.slot state.stack 1 = some connection.self
  userdata : env.touserdata connection.self = some connection.s
  isInstance : env.isInstance connection.self state.upvalue = true
  family : getsockaddrlen connection.s state = .ok (some connection.addrlen) state
  selectable : env.isSelectable connection.s = true
  accept : env.accept connection.s connection.addrlen =
    .accepted connection.newfd connection.addr connection.length
  callable : env.metafield state.upvalue "__call" ≠ .nil
  call : env.call (env.metafield state.upvalue "__call")
      [state.upvalue, .integer connection.s.sock_family.toInt64,
        .integer connection.s.sock_type.toInt64, .integer connection.s.sock_proto.toInt64,
        .integer connection.newfd] state.tables =
    .ok (.object connection.object, connection.tables)

/-- `sock_accept` returns when the peer's address has a name. When it does, it returns the new
object and the address of the peer. -/
def ReturnsPeer (env : Environment) (state : LuaState) (connection : Connection) : Prop :=
  (Named env connection.addr connection.length →
      ∃ results after, sock_accept env state = .ok results after) ∧
    ∀ results after, sock_accept env state = .ok results after →
      ∃ address, results = [.object connection.object, address] ∧
        IsAddress env after.tables connection.addr connection.length address

section Accepting

variable {env : Environment} {state : LuaState} {connection : Connection}

theorem index2addr_upvalue (state : LuaState) :
    index2addr (lua_upvalueindex 1) state = .ok state.upvalue state := by
  unfold index2addr
  rw [if_pos rfl]

/-- `new_sockobject` pushes the object that the class returns. -/
theorem Listening.new_sockobject (listening : Listening env state connection) :
    new_sockobject env connection.newfd connection.s.sock_family connection.s.sock_type
        connection.s.sock_proto state =
      .ok true ⟨.object connection.object :: state.stack, state.upvalue, connection.tables⟩ := by
  obtain ⟨stack, upvalue, tables⟩ := state
  have found : luaL_getmetafield env (lua_upvalueindex 1) "__call" ⟨stack, upvalue, tables⟩ =
      .ok true ⟨env.metafield upvalue "__call" :: stack, upvalue, tables⟩ := by
    unfold luaL_getmetafield
    rw [bind_of_ok (index2addr_upvalue _)]
    dsimp only
    rw [if_neg listening.callable]
    rfl
  have class_ (below : List Value) : lua_pushvalue (lua_upvalueindex 1) ⟨below, upvalue, tables⟩ =
      .ok () ⟨upvalue :: below, upvalue, tables⟩ :=
    bind_of_ok (index2addr_upvalue _)
  unfold Socket.new_sockobject
  dsimp only
  rw [bind_of_ok found, if_pos rfl, bind_of_ok (class_ _)]
  rw [bind_of_ok (lua_pushinteger_run _ _ _ _), bind_of_ok (lua_pushinteger_run _ _ _ _),
    bind_of_ok (lua_pushinteger_run _ _ _ _), bind_of_ok (lua_pushinteger_run _ _ _ _)]
  have called : lua_call env 5 ⟨.integer connection.newfd ::
        .integer connection.s.sock_proto.toInt64 :: .integer connection.s.sock_type.toInt64 ::
        .integer connection.s.sock_family.toInt64 :: upvalue :: env.metafield upvalue "__call" ::
        stack, upvalue, tables⟩ =
      .ok () ⟨.object connection.object :: stack, upvalue, connection.tables⟩ := by
    have call := listening.call
    unfold lua_call
    simp only [List.getElem?_cons_succ, List.getElem?_cons_zero, List.take, List.drop,
      List.reverse_cons, List.reverse_nil, List.nil_append, List.cons_append]
    simp only [call]
  rw [bind_of_ok called]
  rfl

/-- `sock_accept` passes its checks. -/
theorem Listening.sock_accept (listening : Listening env state connection) :
    sock_accept env state =
      sock_accepted env connection.s connection.newfd connection.addr connection.length state := by
  have userdata : lua_touserdata env 1 state = .ok (some connection.s) state := by
    unfold lua_touserdata
    rw [listening.self]
    exact congrArg (EStateM.Result.ok · state) listening.userdata
  have ordinary : (1 : Int) ≠ lua_upvalueindex 1 := by decide
  have checked : checkInstance env 1 (lua_upvalueindex 1) state = .ok () state := by
    unfold checkInstance
    rw [bind_of_ok (index2addr_of_slot ordinary listening.self),
      bind_of_ok (index2addr_upvalue state), if_pos listening.isInstance]
    rfl
  unfold Socket.sock_accept
  rw [bind_of_ok userdata]
  dsimp only
  rw [bind_of_ok checked, bind_of_ok listening.family]
  dsimp only
  rw [if_pos listening.selectable, listening.accept]

/-- **`sock_accept` returns what lies on top of the new object.** -/
theorem Listening.sock_accepted (listening : Listening env state connection) :
    Socket.sock_accept env state = (do
        let ok ← makesockaddr env connection.addr connection.length
        if ok then returns 2 else lua_error)
      ⟨.object connection.object :: state.stack, state.upvalue, connection.tables⟩ := by
  rw [listening.sock_accept]
  unfold Socket.sock_accepted
  rw [bind_of_ok listening.new_sockobject, if_pos rfl]

/-- The new object is below what `makesockaddr` has pushed, so there are two values. -/
theorem Listening.returned (listening : Listening env state connection)
    (single : Single env connection.addr connection.length)
    (named : Named env connection.addr connection.length) :
    ∃ results after, Socket.sock_accept env state = .ok results after := by
  rw [listening.sock_accepted]
  rcases makesockaddr_single (.object connection.object :: state.stack) state.upvalue
    connection.tables single with ⟨failed, fails⟩ | ⟨address, new, succeeds, _⟩
  · obtain ⟨after, succeeds⟩ := makesockaddr_named named
      ⟨.object connection.object :: state.stack, state.upvalue, connection.tables⟩
    cases fails.symm.trans succeeds
  · rw [bind_of_ok succeeds, if_pos rfl]
    unfold returns
    rw [if_pos (by simp)]
    exact ⟨_, _, rfl⟩

theorem returnsPeer_iff (listening : Listening env state connection) :
    ReturnsPeer env state connection ↔ Single env connection.addr connection.length := by
  constructor
  · rintro ⟨_, peer⟩
    by_contra doubled
    obtain ⟨buf, entries, ran⟩ := makesockaddr_doubled
      (.object connection.object :: state.stack) state.upvalue connection.tables doubled
    have accepted : Socket.sock_accept env state = .ok [.string buf, .table connection.tables.length]
        ⟨.table connection.tables.length :: .string buf :: .object connection.object :: state.stack,
          state.upvalue, connection.tables ++ [entries]⟩ := by
      rw [listening.sock_accepted, bind_of_ok ran, if_pos rfl]
      unfold returns
      rw [if_pos (by simp)]
      rfl
    obtain ⟨address, results, _⟩ := peer _ _ accepted
    cases results
  · intro single
    refine ⟨listening.returned single, fun results after accepted => ?_⟩
    rw [listening.sock_accepted] at accepted
    rcases makesockaddr_single (.object connection.object :: state.stack) state.upvalue
      connection.tables single with ⟨failed, fails⟩ | ⟨address, new, succeeds, isAddress⟩
    · rw [bind_of_ok fails, if_neg Bool.false_ne_true] at accepted
      unfold lua_error at accepted
      split at accepted
      · cases accepted
      · cases accepted
    · rw [bind_of_ok succeeds, if_pos rfl] at accepted
      unfold returns at accepted
      rw [if_pos (by simp)] at accepted
      cases accepted
      exact ⟨address, rfl, isAddress⟩

/-- **`makesockaddr` pushes one value, and `sock_accept` returns the new object and the address
of its peer, if and only if** there is no address or it is not a named one of `AF_INET6`. -/
theorem address_iff (env : Environment) (addr : Sockaddr) (addrlen : Int32) :
    (∀ state, OneAddress env addr addrlen state ↔ Single env addr addrlen) ∧
      ∀ state connection, Listening env state connection → connection.addr = addr →
        connection.length = addrlen →
          (ReturnsPeer env state connection ↔ Single env addr addrlen) := by
  refine ⟨oneAddress_iff, ?_⟩
  rintro state connection listening rfl rfl
  exact returnsPeer_iff listening

end Accepting

/-- A peer on port 80. -/
def port80 (sa_family : UInt16) : Sockaddr where
  sa_family := sa_family
  sin_port := 0x5000
  sin6_flowinfo := 0
  sin6_scope_id := 0
  sa_data := []

/-- A connection from that peer to a socket of the same family. -/
def fromPort80 (sa_family : UInt16) (length : Int32) : Connection where
  self := .object 0
  s := { sock_fd := 3, sock_family := .ofNat sa_family.toNat, sock_type := 1, sock_proto := 6 }
  addrlen := if sa_family = AF_INET then sizeof_sockaddr_in else sizeof_sockaddr_in6
  newfd := 4
  addr := port80 sa_family
  length := length
  object := 2
  tables := []

/-- The operating system and the classes around that connection. The peer's address is written
`127.0.0.1` or `::1`. -/
def aroundPort80 (sa_family : UInt16) (length : Int32) : Environment where
  getnameinfo := fun _ _ =>
    .ok (if sa_family = AF_INET then [49, 50, 55, 46, 48, 46, 48, 46, 49] else [58, 58, 49])
  touserdata := fun _ => some (fromPort80 sa_family length).s
  isInstance := fun _ _ => true
  isSelectable := fun _ => true
  accept := fun _ _ => .accepted 4 (port80 sa_family) length
  metafield := fun _ _ => .object 1
  call := fun _ _ tables => .ok (.object 2, tables)

theorem listening_port80 (length : Int32) :
    Listening (aroundPort80 AF_INET length) ⟨[.object 0], .object 5, []⟩
      (fromPort80 AF_INET length) where
  self := rfl
  userdata := rfl
  isInstance := rfl
  family := rfl
  selectable := rfl
  accept := rfl
  callable := by simp [aroundPort80]
  call := rfl

/-- The peer of a connection over `AF_INET`: its address is pushed and returned. -/
theorem address_iff_inet :
    OneAddress (aroundPort80 AF_INET 16) (port80 AF_INET) 16 ⟨[.object 0], .object 5, []⟩ ∧
      ReturnsPeer (aroundPort80 AF_INET 16) ⟨[.object 0], .object 5, []⟩
        (fromPort80 AF_INET 16) ∧
      ∃ results after, sock_accept (aroundPort80 AF_INET 16) ⟨[.object 0], .object 5, []⟩ =
        .ok results after := by
  have single : Single (aroundPort80 AF_INET 16) (port80 AF_INET) 16 := by
    right
    left
    decide
  obtain ⟨pushes, returns_⟩ := address_iff (aroundPort80 AF_INET 16) (port80 AF_INET) 16
  have peer := (returns_ _ _ (listening_port80 16) rfl rfl).mpr single
  exact ⟨(pushes _).mpr single, peer, peer.1 (Or.inr ⟨_, rfl⟩)⟩

/-- **The peer of a connection over `AF_INET6`**: `sock_accept` returns the string of the address
and the table, and not the new object. -/
theorem not_oneAddress_inet6 :
    (∃ after, sock_accept (aroundPort80 AF_INET6 28) ⟨[.object 0], .object 5, []⟩ =
        .ok [.string [58, 58, 49], .table 0] after) ∧
      ¬ OneAddress (aroundPort80 AF_INET6 28) (port80 AF_INET6) 28 ⟨[.object 0], .object 5, []⟩ ∧
      ¬ ReturnsPeer (aroundPort80 AF_INET6 28) ⟨[.object 0], .object 5, []⟩
        (fromPort80 AF_INET6 28) := by
  refine ⟨⟨_, rfl⟩, ?_, ?_⟩
  · rintro ⟨_, one⟩
    obtain ⟨address, new, same, _⟩ := one _ rfl
    have heights := congrArg (fun state => state.stack.length) same
    exact absurd heights (by simp)
  · rintro ⟨_, peer⟩
    obtain ⟨address, results, _⟩ := peer _ _ rfl
    cases results

end Socket

end EasyLua
