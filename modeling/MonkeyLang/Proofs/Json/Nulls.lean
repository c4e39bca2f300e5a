import MonkeyLang.Json.Basic
import MonkeyLang.Number.Read

/-!
# Doubles that become null

JSON has no text for a double that is not finite, and such a double is written as null. What a text
says is the value in which these doubles are null (`Json.asWritten`); it is the value itself if all
doubles are finite (`Json.NumbersIn.asWritten_eq`).

A lawful library reads back what it writes (`Json.Library.Lawful`), up to three things that such a
library documents. A double that is not finite is written as null. A finite double is written with
the digits that the library chooses, and whether they are read as the same double is asked of each
double by itself (`Json.Library.ReadsBack`). A value that is nested too deeply may be refused.
-/

set_option autoImplicit false

namespace MonkeyLang

/-! ## Finite doubles -/

/-- The double is a number, and not an infinite one. -/
def Binary64.IsFinite (value : Float) : Prop :=
  ∃ negative mantissa exponent, Binary64.ofFloat value = .finite negative mantissa exponent

instance (value : Float) : Decidable (Binary64.IsFinite value) :=
  match parts : Binary64.ofFloat value with
  | .finite negative mantissa exponent => .isTrue ⟨negative, mantissa, exponent, parts⟩
  | .nan => .isFalse fun ⟨_, _, _, is⟩ => Binary64.noConfusion (parts.symm.trans is)
  | .infinite _ => .isFalse fun ⟨_, _, _, is⟩ => Binary64.noConfusion (parts.symm.trans is)

namespace Json

/-! ## What the text says -/

mutual

/-- The value with null for each double that is not finite. -/
def asWritten : Json → Json
  | .real value => if Binary64.IsFinite value then .real value else .null
  | .array items => .array (itemsAsWritten items)
  | .object members => .object (membersAsWritten members)
  | scalar => scalar

/-- The items with null for each double that is not finite. -/
def itemsAsWritten : List Json → List Json
  | [] => []
  | item :: items => item.asWritten :: itemsAsWritten items

/-- The members with null for each double that is not finite. -/
def membersAsWritten : List (String × Json) → List (String × Json)
  | [] => []
  | (name, member) :: members => (name, member.asWritten) :: membersAsWritten members

end

mutual

theorem depth_asWritten : ∀ json : Json, json.asWritten.depth = json.depth
  | .null => rfl
  | .bool _ => rfl
  | .integer _ => rfl
  | .real value => by
    rw [asWritten]
    split <;> rfl
  | .string _ => rfl
  | .array items => by rw [asWritten, depth, depth, depthOfItems_asWritten items]
  | .object members => by rw [asWritten, depth, depth, depthOfMembers_asWritten members]

theorem depthOfItems_asWritten : ∀ items : List Json,
    depthOfItems (itemsAsWritten items) = depthOfItems items
  | [] => rfl
  | item :: items => by
    rw [itemsAsWritten, depthOfItems, depthOfItems, depth_asWritten item,
      depthOfItems_asWritten items]

theorem depthOfMembers_asWritten : ∀ members : List (String × Json),
    depthOfMembers (membersAsWritten members) = depthOfMembers members
  | [] => rfl
  | (name, member) :: members => by
    rw [membersAsWritten, depthOfMembers, depthOfMembers, depth_asWritten member,
      depthOfMembers_asWritten members]

end

/-! ## The numbers in a value -/

mutual

/-- The whole numbers in a value have sixty-four bits, and its doubles are such as they are asked
to be. -/
def NumbersIn (real : Float → Prop) : Json → Prop
  | .integer number => -(Number.twoTo 63 : Int) ≤ number ∧ number ≤ Number.greatestSize
  | .real number => real number
  | .array items => ItemsIn real items
  | .object members => MembersIn real members
  | _ => True

/-- The same of the numbers in items. -/
def ItemsIn (real : Float → Prop) : List Json → Prop
  | [] => True
  | item :: items => item.NumbersIn real ∧ ItemsIn real items

/-- The same of the numbers in members. -/
def MembersIn (real : Float → Prop) : List (String × Json) → Prop
  | [] => True
  | (_, member) :: members => member.NumbersIn real ∧ MembersIn real members

end

mutual

theorem NumbersIn.mono {real wider : Float → Prop} (wide : ∀ value, real value → wider value) :
    ∀ json : Json, json.NumbersIn real → json.NumbersIn wider
  | .null, _ => trivial
  | .bool _, _ => trivial
  | .integer _, fits => fits
  | .real value, holds => wide value holds
  | .string _, _ => trivial
  | .array items, fit => ItemsIn.mono wide items fit
  | .object members, fit => MembersIn.mono wide members fit

theorem ItemsIn.mono {real wider : Float → Prop} (wide : ∀ value, real value → wider value) :
    ∀ items : List Json, ItemsIn real items → ItemsIn wider items
  | [], _ => trivial
  | item :: items, fit => ⟨NumbersIn.mono wide item fit.1, ItemsIn.mono wide items fit.2⟩

theorem MembersIn.mono {real wider : Float → Prop} (wide : ∀ value, real value → wider value) :
    ∀ members : List (String × Json), MembersIn real members → MembersIn wider members
  | [], _ => trivial
  | (_, member) :: members, fit =>
    ⟨NumbersIn.mono wide member fit.1, MembersIn.mono wide members fit.2⟩

end

mutual

/-- What is asked of the finite doubles in a value holds of all doubles in what its text says. -/
theorem NumbersIn.asWritten {real : Float → Prop} : ∀ json : Json,
    json.NumbersIn (fun value => Binary64.IsFinite value → real value) →
    json.asWritten.NumbersIn real
  | .null, _ => trivial
  | .bool _, _ => trivial
  | .integer _, fits => fits
  | .real value, holds => by
    rw [Json.asWritten]
    split
    · next finite => exact holds finite
    · trivial
  | .string _, _ => trivial
  | .array items, fit => ItemsIn.asWritten items fit
  | .object members, fit => MembersIn.asWritten members fit

theorem ItemsIn.asWritten {real : Float → Prop} : ∀ items : List Json,
    ItemsIn (fun value => Binary64.IsFinite value → real value) items →
    ItemsIn real (itemsAsWritten items)
  | [], _ => trivial
  | item :: items, fit => ⟨NumbersIn.asWritten item fit.1, ItemsIn.asWritten items fit.2⟩

theorem MembersIn.asWritten {real : Float → Prop} : ∀ members : List (String × Json),
    MembersIn (fun value => Binary64.IsFinite value → real value) members →
    MembersIn real (membersAsWritten members)
  | [], _ => trivial
  | (_, member) :: members, fit =>
    ⟨NumbersIn.asWritten member fit.1, MembersIn.asWritten members fit.2⟩

end

mutual

/-- If all doubles are finite, the text says what there is. -/
theorem NumbersIn.asWritten_eq : ∀ json : Json, json.NumbersIn Binary64.IsFinite →
    json.asWritten = json
  | .null, _ => rfl
  | .bool _, _ => rfl
  | .integer _, _ => rfl
  | .real _, finite => if_pos finite
  | .string _, _ => rfl
  | .array items, finite => congrArg array (ItemsIn.asWritten_eq items finite)
  | .object members, finite => congrArg object (MembersIn.asWritten_eq members finite)

theorem ItemsIn.asWritten_eq : ∀ items : List Json, ItemsIn Binary64.IsFinite items →
    itemsAsWritten items = items
  | [], _ => rfl
  | item :: items, finite => by
    rw [itemsAsWritten, NumbersIn.asWritten_eq item finite.1, ItemsIn.asWritten_eq items finite.2]

theorem MembersIn.asWritten_eq : ∀ members : List (String × Json),
    MembersIn Binary64.IsFinite members → membersAsWritten members = members
  | [], _ => rfl
  | (_, member) :: members, finite => by
    rw [membersAsWritten, NumbersIn.asWritten_eq member finite.1,
      MembersIn.asWritten_eq members finite.2]

end

/-! ## What is asked of a library -/

namespace Library

variable (library : Library)

/-- The text of a double is read as that double. -/
def ReadsBack (value : Float) : Prop :=
  library.read? (library.write (.real value)).toList = some (.real value)

/-- What is written is read back, with null for a double that is not finite, if the whole numbers
have sixty-four bits, the finite doubles are read back and the limit on nesting is kept. -/
def Lawful : Prop :=
  ∀ json : Json,
    json.NumbersIn (fun value => Binary64.IsFinite value → library.ReadsBack value) →
    json.depth < library.depthLimit →
    library.read? (library.write json).toList = some json.asWritten

end Library

end Json

end MonkeyLang
