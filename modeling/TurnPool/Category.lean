/-!
# Admission categories

Blocking work is done under a token of some category. A category has no behaviour of its own:
it groups tokens for the counting of what is in use and for diagnostics.

## Main definitions

* `Category`: the six categories.
* `PerCategory`: a table with one entry for each category, with `get` and `set`.
-/

namespace TurnPool

/-- The class of blocking work that a token is issued for. -/
inductive Category where
  /-- Serving requests from other peers. -/
  | client
  /-- Talking to the remote service. -/
  | server
  /-- Bulk upload of content. -/
  | upload
  /-- Background maintenance. -/
  | housekeeping
  /-- Work that is never throttled. -/
  | unlimited
  /-- Resolving the identities of users and devices. -/
  | userResolution
deriving DecidableEq, Repr, Inhabited

namespace Category

/-- Every category, in the order in which categories are listed and compared. -/
def all : List Category :=
  [.client, .server, .upload, .housekeeping, .unlimited, .userResolution]

theorem mem_all (c : Category) : c ∈ all := by
  cases c <;> decide

/-- The place of a category in `Category.all`. -/
def rank : Category → Nat
  | .client => 0
  | .server => 1
  | .upload => 2
  | .housekeeping => 3
  | .unlimited => 4
  | .userResolution => 5

/-- The short label used in dumps. -/
def label : Category → String
  | .client => "cli"
  | .server => "srv"
  | .upload => "upl"
  | .housekeeping => "hk"
  | .unlimited => "unl"
  | .userResolution => "usr"

/-- The name used in data. -/
def name : Category → String
  | .client => "client"
  | .server => "server"
  | .upload => "upload"
  | .housekeeping => "housekeeping"
  | .unlimited => "unlimited"
  | .userResolution => "user_resolution"

/-- The name used in diagnostic text. -/
def variant : Category → String
  | .client => "Client"
  | .server => "Server"
  | .upload => "Upload"
  | .housekeeping => "Housekeeping"
  | .unlimited => "Unlimited"
  | .userResolution => "UserResolution"

/-- The name used in the names of environment variables. -/
def envName : Category → String
  | .client => "CLIENT"
  | .server => "SERVER"
  | .upload => "UPLOAD"
  | .housekeeping => "HOUSEKEEPING"
  | .unlimited => "UNLIMITED"
  | .userResolution => "USER_RESOLUTION"

/-- The category of a given name, if there is one. -/
def ofName? (s : String) : Option Category :=
  all.find? (·.name == s)

@[simp] theorem ofName?_name (c : Category) : ofName? c.name = some c := by
  cases c <;> decide

/-- The order of two categories, by their place in `Category.all`. -/
def order (c d : Category) : Ordering :=
  compare c.rank d.rank

end Category

/-- A table with one entry for each category. -/
structure PerCategory (α : Type) where
  /-- The entry of `Category.client`. -/
  client : α
  /-- The entry of `Category.server`. -/
  server : α
  /-- The entry of `Category.upload`. -/
  upload : α
  /-- The entry of `Category.housekeeping`. -/
  housekeeping : α
  /-- The entry of `Category.unlimited`. -/
  unlimited : α
  /-- The entry of `Category.userResolution`. -/
  userResolution : α
deriving DecidableEq, Repr

namespace PerCategory

variable {α β : Type}

/-- The table whose entries are all `a`. -/
def const (a : α) : PerCategory α := ⟨a, a, a, a, a, a⟩

/-- The entry of a category. -/
def get (t : PerCategory α) : Category → α
  | .client => t.client
  | .server => t.server
  | .upload => t.upload
  | .housekeeping => t.housekeeping
  | .unlimited => t.unlimited
  | .userResolution => t.userResolution

/-- The table with the entry of one category replaced. -/
def set (t : PerCategory α) (c : Category) (a : α) : PerCategory α :=
  match c with
  | .client => { t with client := a }
  | .server => { t with server := a }
  | .upload => { t with upload := a }
  | .housekeeping => { t with housekeeping := a }
  | .unlimited => { t with unlimited := a }
  | .userResolution => { t with userResolution := a }

/-- The table of the values of a function. -/
def ofFn (f : Category → α) : PerCategory α :=
  ⟨f .client, f .server, f .upload, f .housekeeping, f .unlimited, f .userResolution⟩

/-- The entries in the order of `Category.all`. -/
def toList (t : PerCategory α) : List (Category × α) :=
  Category.all.map fun c => (c, t.get c)

@[simp] theorem get_const (a : α) (c : Category) : (const a).get c = a := by
  cases c <;> rfl

@[simp] theorem get_ofFn (f : Category → α) (c : Category) : (ofFn f).get c = f c := by
  cases c <;> rfl

@[simp] theorem get_set_self (t : PerCategory α) (c : Category) (a : α) :
    (t.set c a).get c = a := by
  cases c <;> rfl

@[simp] theorem get_set_of_ne (t : PerCategory α) {c d : Category} (a : α) (h : d ≠ c) :
    (t.set c a).get d = t.get d := by
  cases c <;> cases d <;> first | rfl | exact absurd rfl h

/-- Two tables with the same entries are equal. -/
theorem ext_get {s t : PerCategory α} (h : ∀ c, s.get c = t.get c) : s = t := by
  have h₁ := h .client
  have h₂ := h .server
  have h₃ := h .upload
  have h₄ := h .housekeeping
  have h₅ := h .unlimited
  have h₆ := h .userResolution
  cases s
  cases t
  simp_all [get]

end PerCategory

end TurnPool
