import Accelerator.Proofs.Json.Decoding
import Accelerator.Topology.Source

/-!
# Configurations are read back from their text

A configuration is written as a JSON object, and reading that text gives the configuration again:
names may hold any characters, numbers any value of their type, and masks any bits. Whether the
configuration is valid plays no part in this; it is looked at last, and a configuration that is
not valid is refused with the fault that validation finds.

The objects hold strings, natural numbers, truth values and lists of them, all of which are read
back on their own. What is left is that no object uses a name twice, and that a region, whose
attributes are held as values before they are told apart from its owners, can be held.

## Reading and validating apart

Reading a tree gives a configuration, and then the configuration is validated. The round trip is
shown of the first only, for configurations of any kind; the second is a function of the result. So
nothing here depends on what makes a configuration valid.

## Main results

* `AgentInfo.ofJson?_toJson`, `RegionConfig.ofJson?_toJson`, `Config.ofJson?_toJson`: reading a
  tree inverts writing it.
* `Config.legible_toJson`: all numbers of a configuration's tree are legible.
* `Config.ofText_toJson`: reading the text of a configuration validates the configuration.
-/

namespace Accelerator

/-! ### Reading a tree -/

theorem AgentInfo.ofJson?_toJson (a : AgentInfo) : ofJson? a.toJson = some a := by
  obtain ⟨field, read, value⟩ : ∃ field, a.toJson.record? fieldNames = some field ∧ _ :=
    Json.record?_ofMembers _ (by simp)
  simp only [List.forall_mem_cons, List.not_mem_nil, false_implies, implies_true, and_true] at value
  rw [ofJson?, read, Option.bind_eq_bind, Option.bind_some]
  -- Each field is read in place; the chain of reads is left to `rfl`, as simplifying it inside
  -- out would go through what follows a field once more for every field before it.
  simp only [value, Option.bind_some, Json.triple?_map Json.uint32?_ofUInt32,
    Json.triple?_map Json.uint16?_ofNat, Json.uint32?_ofUInt32, Json.uint64?_ofUInt64,
    Json.text?_ofString, Json.member?_ofMember, Features.readable_names.ofText?_text]
  rfl

/-- The members of a region fit as values. -/
theorem RegionInfo.fits_members (r : RegionInfo) (depth : Nat) :
    ∀ m ∈ r.members, m.2.fits depth = true := by
  simp only [members, List.forall_mem_cons, List.not_mem_nil, false_implies, implies_true,
    Json.fits_ofUInt64, Json.fits_ofString, Json.fits_ofMember, Json.fits_bool, and_self]

/-- A region is read from any fields among which its members are found. -/
theorem RegionInfo.ofFields?_members {r : RegionInfo} {field : String → Option Json} (held : Bool)
    (value : ∀ m ∈ r.members, field m.1 = some m.2) : ofFields? held field = some r := by
  simp only [members, List.forall_mem_cons, List.not_mem_nil, false_implies, implies_true,
    and_true] at value
  simp only [ofFields?, value, Option.bind_some, Json.uint64?_ofUInt64, Json.text?_ofString,
    Json.member?_ofMember, GlobalFlags.readable_names.ofText?_text]
  rfl

/-- The members of the object of a region with its owners. -/
def RegionConfig.members (r : RegionConfig) : List (String × Json) :=
  r.info.members ++ [("owners", .array (r.owners.map Json.ofString))]

theorem RegionConfig.ofJson?_toJson (depth : Nat) (r : RegionConfig) :
    ofJson? depth r.toJson = some r := by
  have distinct : (r.members.map Prod.fst).Nodup := by simp [members, RegionInfo.members]
  obtain ⟨field, read, value⟩ :=
    Json.record?_ofMembers ("owners" :: RegionInfo.fieldNames) distinct
  have info : RegionInfo.ofFields? true field = some r.info :=
    RegionInfo.ofFields?_members true fun m hm => value m (List.mem_append_left _ hm)
  have owners : (field "owners").bind (Json.list? Json.text?) = some r.owners := by
    have listed : field "owners" = _ := value ("owners", .array (r.owners.map Json.ofString))
      (List.mem_append_right _ (List.mem_singleton_self _))
    rw [listed]
    exact Json.list?_map Json.text?_ofString r.owners
  -- The owners are exempt from being held; the members of the region itself all fit.
  have held : (r.members.map fun m => (some m.1, m.2)).all
      (fun m => m.1 == some "owners" || m.2.fits (depthLimit - depth)) = true := by
    simp only [List.all_map, List.all_eq_true, Function.comp, members, List.mem_append,
      List.mem_singleton, Bool.or_eq_true]
    rintro m (hm | rfl)
    · exact .inr (RegionInfo.fits_members r.info _ m hm)
    · exact .inl (by simp)
  have whole : r.toJson = .object (r.members.map fun m => (some m.1, m.2)) := rfl
  rw [Json.ofMembers] at read
  rw [whole, ofJson?, read, held, Option.bind_eq_bind, Option.bind_some, info, owners]
  rfl

theorem Config.ofJson?_toJson (c : Config) : ofJson? c.toJson = some c := by
  obtain ⟨field, read, value⟩ : ∃ field, c.toJson.record? fieldNames = some field ∧ _ :=
    Json.record?_ofMembers _ (by simp)
  simp only [List.forall_mem_cons, List.not_mem_nil, false_implies, implies_true, and_true] at value
  rw [ofJson?, read, Option.bind_eq_bind, Option.bind_some]
  simp only [value, Option.bind_some, Json.uint32?_ofUInt32, Json.uint64?_ofUInt64,
    Json.list?_map AgentInfo.ofJson?_toJson, Json.list?_map (RegionConfig.ofJson?_toJson 3)]
  rfl

/-! ### Reading a text -/

theorem AgentInfo.legible_toJson (a : AgentInfo) : a.toJson.Legible := by
  refine Json.legible_ofMembers ?_
  simp [Json.legible_ofString, Json.legible_ofMember, Json.legible_ofUInt32,
    Json.legible_ofUInt64, Json.legible_map Json.legible_ofUInt32,
    Json.legible_map fun d : UInt16 => Json.legible_ofNat d.toNat]

theorem RegionConfig.legible_toJson (r : RegionConfig) : r.toJson.Legible := by
  refine Json.legible_ofMembers ?_
  simp [RegionInfo.members, Json.legible_ofString, Json.legible_ofMember, Json.legible_bool,
    Json.legible_ofUInt64, Json.legible_map Json.legible_ofString]

theorem Config.legible_toJson (c : Config) : c.toJson.Legible := by
  refine Json.legible_ofMembers ?_
  simp [Json.legible_ofUInt32, Json.legible_ofUInt64, Json.legible_map AgentInfo.legible_toJson,
    Json.legible_map RegionConfig.legible_toJson]

namespace Config

variable (c : Config)

/-- Reading the text of a configuration validates the configuration, and blanks anywhere between
the words and signs of the text change nothing. -/
theorem ofText_toJson :
    (ofText c.toJson.render = match c.validate with
      | .ok () => .ok c
      | .error cause => .error (.topology cause)) ∧
      ∀ gap, ofText (.ofList (Json.layOut gap c.toJson.tokens)) = ofText c.toJson.render := by
  have read : (Json.ofText? c.toJson.render).bind ofJson? = some c := by
    rw [Json.ofText?_render c.legible_toJson, Option.bind_some, c.ofJson?_toJson]
  constructor
  · rw [ofText, read]
    rfl
  · intro gap
    rw [ofText, ofText, Json.ofText?_layOut gap c.legible_toJson,
      Json.ofText?_render c.legible_toJson]

end Config

end Accelerator
