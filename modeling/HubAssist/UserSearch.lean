import HubAssist.JsText
import HubAssist.KeyedTable
import HubAssist.PagedFeed
import HubAssist.NodeRuntime
import HubAssist.QueryBuilder
import Mathlib.Data.Prod.Lex
import Mathlib.Order.OrderDual

/-! The search for users, whose cursor is the id of the last user of a page while the users come by
age, and a client that follows its cursors. The search by text, which would order them by relevance,
is refused by the database. -/
namespace HubAssist.UserSearch
open QueryBuilder NodeRuntime PagedFeed JsText KeyedTable

inductive UserRole where
  | admin
  | member
  | staff
  deriving DecidableEq, Repr

/-- The columns of a user that the search reads. -/
structure User (Id : Type) where
  id : Id
  email : JsString
  role : UserRole
  isVerified : Bool
  createdAt : ℤ
  deriving DecidableEq

structure UserSearchDto where
  q : Option String
  role : Option UserRole
  verified : Option Bool
  cursor : Option String
  limit : Option ℤ
  deriving DecidableEq

inductive SearchParam where
  | text (value : String)
  | role (value : UserRole)
  | boolean (value : Bool)
  deriving DecidableEq

structure SearchResponse (Id : Type) where
  users : List (User Id)
  hasMore : Bool
  nextCursor : Option String

variable {Id : Type} [LinearOrder Id] (uuid : UuidType Id)

/-- `user.searchVector @@ plainto_tsquery('english', :query)`. The entity has no such column, so the
name goes into the statement as it is, without quotes; as `user` is a reserved word, the database
takes the statement with no parameter. -/
def textMatches : Condition SearchParam (User Id) where
  accepts _ := false
  holds _ _ := false

/-- `user.role = :role`. -/
def roleEquals : Condition SearchParam (User Id) where
  accepts parameter := match parameter "role" with
    | some (.role _) => true
    | _ => false
  holds parameter user := parameter "role" = some (.role user.role)

/-- `user.isVerified = :verified`. -/
def verifiedEquals : Condition SearchParam (User Id) where
  accepts parameter := match parameter "verified" with
    | some (.boolean _) => true
    | _ => false
  holds parameter user := parameter "verified" = some (.boolean user.isVerified)

/-- `user.id > :cursor`. -/
def idAfter : Condition SearchParam (User Id) where
  accepts parameter := match parameter "cursor" with
    | some (.text cursor) => (uuid.read cursor).isSome
    | _ => false
  holds parameter user := match parameter "cursor" with
    | some (.text cursor) =>
      match uuid.read cursor with
      | some id => id < user.id
      | none => false
    | _ => false

def searchQuery (dto : UserSearchDto) : SelectQuery SearchParam (User Id) :=
  (((SelectQuery.empty.andWhereIf ((truthy dto.q).map fun q =>
      (textMatches, [("query", .text q)]))).andWhereIf
    (dto.role.map fun role => (roleEquals, [("role", .role role)]))).andWhereIf
    (dto.verified.map fun verified =>
      (verifiedEquals, [("verified", .boolean verified)]))).andWhereIf
    ((truthy dto.cursor).map fun cursor => (idAfter uuid, [("cursor", .text cursor)]))

/-- The order of the rows that are found: by age, the youngest first, and then by ascending id. -/
def sortKey (user : User Id) : ℤ ×ₗ Idᵒᵈ := toLex (user.createdAt, OrderDual.toDual user.id)

/-- The part before the first `@` and the part up to the next one, of which only two characters and
their number are kept. -/
def maskEmail (email : JsString) : JsString :=
  let parts := email.splitOn 64
  let localPart := parts.headD []
  let domain := parts[1]?.getD (utf16 "undefined".toList)
  localPart.take 2 ++ List.replicate (localPart.length-2) 42 ++ [64] ++ domain

def maskUser (user : User Id) : User Id :=
  { user with email := if user.role = .admin then user.email else maskEmail user.email }

def searchLimit (dto : UserSearchDto) : ℤ :=
  min (match dto.limit with
    | some limit => if limit = 0 then 20 else limit
    | none => 20) 100

def searchPage (limit : ℤ) (results : List (User Id)) : SearchResponse Id :=
  let hasMore : Bool := limit < results.length
  let users := sliceTo limit results
  { users := users.map maskUser
    hasMore := hasMore
    nextCursor := if hasMore then users.getLast?.map fun user => uuid.write user.id else none }

def searchUsers (dto : UserSearchDto) (users : List (User Id)) :
    Except QueryError (SearchResponse Id) := do
  let limit := searchLimit dto
  -- one row too many tells whether there are more
  let results ← getMany sortKey (searchQuery uuid dto) (limit+1) users
  return searchPage uuid limit results

/-- The request of the page at a cursor. -/
def searchRequest (dto : UserSearchDto) (users : List (User Id)) (cursor : Option String) :
    Except QueryError (Page (User Id) String) :=
  (searchUsers uuid { dto with cursor := cursor } users).map fun response =>
    ⟨response.users, response.nextCursor⟩

/-- The users that the filters are true of, in the order of the search. -/
def listing (dto : UserSearchDto) (users : List (User Id)) : List (User Id) :=
  descending sortKey
    (users.filter (searchQuery uuid { dto with cursor := none }).holds)

variable {uuid} {dto : UserSearchDto} {users : List (User Id)}

/-- A search with a text fails, on whatever page. -/
theorem searchRequest_text {q : String} (hq : truthy dto.q = some q) (cursor : Option String) :
    searchRequest uuid dto users cursor = .error .parameter := by
  have hrefused : (searchQuery uuid { dto with cursor := cursor }).accepts = false := by
    unfold searchQuery
    rw [show truthy ({ dto with cursor := cursor } : UserSearchDto).q = some q from hq]
    generalize truthy ({ dto with cursor := cursor } : UserSearchDto).cursor = cursor'
    cases dto.role <;> cases dto.verified <;> cases cursor' <;>
      simp [SelectQuery.accepts, SelectQuery.andWhere, SelectQuery.empty, textMatches]
  simp [searchRequest, searchUsers, getMany, hrefused, bind, Except.bind, Except.map]

omit [LinearOrder Id] in
@[simp] theorem maskUser_id (user : User Id) : (maskUser user).id = user.id := rfl

omit [LinearOrder Id] in
theorem eq_of_sortKey (hkeyed : Keyed User.id users) :
    ∀ a ∈ users, ∀ b ∈ users, sortKey a = sortKey b → a = b := by
  intro a ha b hb hab
  have hid : a.id = b.id := OrderDual.toDual_inj.mp (congrArg Prod.snd (toLex.injective hab))
  exact hkeyed.eq_of_key ha hb hid

variable {limit : ℤ}

end HubAssist.UserSearch
