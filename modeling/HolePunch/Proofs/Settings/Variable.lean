import HolePunch.Settings.Load

/-!
# Variables of settings

Each setting has a variable of its own, whose name has no case. `keyOf?_of_isNamedBy` says which key
the variable sets, and `ofEnvironment_cons_of_isNamedBy` what it lays down there.
-/

namespace HolePunch.Settings

inductive Setting where
  | level
  | json
  | recvBufferSize
  | bindAddress
  | readTimeoutMs
  deriving DecidableEq, Repr

namespace Setting

def all : List Setting := [.level, .json, .recvBufferSize, .bindAddress, .readTimeoutMs]

theorem mem_all (k : Setting) : k ∈ all := by cases k <;> decide

instance (P : Setting → Prop) [DecidablePred P] : Decidable (∃ k, P k) :=
  decidable_of_iff (∃ k ∈ all, P k) ⟨fun ⟨k, _, is⟩ => ⟨k, is⟩, fun ⟨k, is⟩ => ⟨k, k.mem_all, is⟩⟩

instance (P : Setting → Prop) [DecidablePred P] : Decidable (∀ k, P k) :=
  decidable_of_iff (∀ k ∈ all, P k) ⟨fun each k => each k k.mem_all, fun each k _ => each k⟩

end Setting

def sectionNames : List String := ["logging", "codec", "listen"]

namespace Setting

def sectionName : Setting → String
  | .level | .json => "logging"
  | .recvBufferSize => "codec"
  | .bindAddress | .readTimeoutMs => "listen"

def fieldName : Setting → String
  | .level => "level"
  | .json => "json"
  | .recvBufferSize => "recv_buffer_size"
  | .bindAddress => "bind_address"
  | .readTimeoutMs => "read_timeout_ms"

def variableName : Setting → String
  | .level => "PUNCHER__LOGGING__LEVEL"
  | .json => "PUNCHER__LOGGING__JSON"
  | .recvBufferSize => "PUNCHER__CODEC__RECV_BUFFER_SIZE"
  | .bindAddress => "PUNCHER__LISTEN__BIND_ADDRESS"
  | .readTimeoutMs => "PUNCHER__LISTEN__READ_TIMEOUT_MS"

/-- The key that the variable of the setting sets. -/
def key (k : Setting) : String := k.sectionName ++ "." ++ k.fieldName

/-- True of the name of the setting's variable, in any letter case. -/
def isNamedBy (k : Setting) (name : String) : Bool :=
  name.toList.map Char.toLower == k.variableName.toList.map Char.toLower

theorem toLower_sectionName (k : Setting) : k.sectionName.toLower = k.sectionName := by
  cases k <;> decide +kernel

theorem toLower_fieldName (k : Setting) : k.fieldName.toLower = k.fieldName := by
  cases k <;> decide +kernel

theorem path?_key (k : Setting) : Node.path? k.key = some (k.sectionName, [.key k.fieldName]) := by
  cases k <;> decide +kernel

theorem keyOf?_variableName (k : Setting) : keyOf? k.variableName = some k.key := by
  cases k <;> decide +kernel

theorem names_injective {j k : Setting} (sections : j.sectionName = k.sectionName)
    (fields : j.fieldName = k.fieldName) : j = k := by
  revert sections fields
  cases j <;> cases k <;> decide

theorem keyOf?_of_isNamedBy {k : Setting} {name : String} (named : k.isNamedBy name = true) :
    keyOf? name = some k.key := by
  have lower : ∀ s : String, s.toLower.toList = s.toList.map Char.toLower :=
    fun _ => String.toList_map
  have same : name.toLower.toList = k.variableName.toLower.toList := by
    rw [lower, lower]
    exact beq_iff_eq.mp named
  rw [← k.keyOf?_variableName, keyOf?, keyOf?, same]

theorem eq_of_isNamedBy {j k : Setting} {name : String} (left : j.isNamedBy name = true)
    (right : k.isNamedBy name = true) : j = k := by
  have keys : j.key = k.key := by
    have found := keyOf?_of_isNamedBy left
    rw [keyOf?_of_isNamedBy right] at found
    exact (Option.some.inj found).symm
  have paths := j.path?_key
  rw [keys, k.path?_key] at paths
  obtain ⟨sections, steps⟩ := Prod.mk.inj (Option.some.inj paths)
  exact (names_injective sections (Node.PathStep.key.inj (List.cons.inj steps).1)).symm

end Setting

/-- The name of a variable that holds no setting. -/
def IsForeign (name : String) : Prop := ¬variableMark <+: name.toLower.toList

instance (name : String) : Decidable (IsForeign name) :=
  inferInstanceAs (Decidable (¬variableMark <+: name.toLower.toList))

namespace Environment

/-- The variables that hold settings are all variables of settings. -/
def Known (env : Environment) : Prop :=
  ∀ entry ∈ env, IsForeign entry.1 ∨ ∃ k : Setting, k.isNamedBy entry.1 = true

/-- No two variables name the same setting. -/
def Once (env : Environment) : Prop :=
  env.Pairwise fun a b => ∀ k : Setting, k.isNamedBy a.1 = true → k.isNamedBy b.1 = false

instance (env : Environment) : Decidable env.Known :=
  inferInstanceAs (Decidable (∀ entry ∈ env,
    IsForeign entry.1 ∨ ∃ k : Setting, k.isNamedBy entry.1 = true))

instance (env : Environment) : Decidable env.Once :=
  inferInstanceAs (Decidable (env.Pairwise fun a b =>
    ∀ k : Setting, k.isNamedBy a.1 = true → k.isNamedBy b.1 = false))

theorem Once.perm {env arranged : Environment} (once : env.Once) (order : env.Perm arranged) :
    arranged.Once := by
  refine List.Pairwise.perm once order ?_
  intro a b apart k named
  rw [Bool.eq_false_iff]
  intro other
  rw [apart k other] at named
  cases named

/-- True of a setting that has a variable here. -/
def names (env : Environment) (k : Setting) : Bool := env.any fun entry => k.isNamedBy entry.1

theorem names_cons (entry : String × String) (later : Environment) (k : Setting) :
    names (entry :: later) k = (k.isNamedBy entry.1 || names later k) := List.any_cons

end Environment

theorem keyOf?_of_isForeign {name : String} (foreign : IsForeign name) : keyOf? name = none := by
  have noMark : variableMark.isPrefixOf name.toLower.toList = false := by
    rw [Bool.eq_false_iff, ne_eq, List.isPrefixOf_iff_prefix]
    exact foreign
  simp only [keyOf?, noMark, Bool.false_eq_true, if_false]

theorem IsForeign.not_isNamedBy {name : String} (foreign : IsForeign name) (k : Setting) :
    ¬k.isNamedBy name = true := by
  intro named
  have found := Setting.keyOf?_of_isNamedBy named
  rw [keyOf?_of_isForeign foreign] at found
  cases found

theorem ofEnvironment_cons_of_isForeign {name : String} (foreign : IsForeign name) (text : String)
    (later : Environment) : ofEnvironment ((name, text) :: later) = ofEnvironment later := by
  simp only [ofEnvironment, List.filterMap_cons, keyOf?_of_isForeign foreign, Option.map_none]

theorem ofEnvironment_cons_of_isNamedBy {k : Setting} {name : String}
    (named : k.isNamedBy name = true) (text : String) (later : Environment) :
    ofEnvironment ((name, text) :: later) = (k.key, ofVariable text) :: ofEnvironment later := by
  simp only [ofEnvironment, List.filterMap_cons, Setting.keyOf?_of_isNamedBy named,
    Option.map_some]

theorem ofEnvironment_of_isForeign {env : Environment}
    (foreign : ∀ entry ∈ env, IsForeign entry.1) : ofEnvironment env = [] := by
  induction env with
  | nil => rfl
  | cons entry later ih =>
    obtain ⟨here, rest⟩ := List.forall_mem_cons.mp foreign
    rw [ofEnvironment_cons_of_isForeign here, ih rest]

end HolePunch.Settings
