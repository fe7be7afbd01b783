/-
  Fresh identifiers.

  * A `Supply` is a sequence of identifiers of which some have been used.
  * `mint` takes the next one; what mints identifiers is a `Minting` computation.

  Nothing is assumed here about the sequence: that its identifiers differ from each other and from
  all others is a property of the generator (`Supply.Fresh`).
-/

namespace Letterpress

/-- A sequence of identifiers, and how many of them have been used. -/
structure Supply where
  ids : Nat → String
  used : Nat

/-- A computation that may take identifiers from the supply. -/
abbrev Minting := StateM Supply

/-- The next identifier. -/
def mint : Minting String := modifyGet fun s => (s.ids s.used, { s with used := s.used + 1 })

namespace Supply

/-- The identifiers that are still to come differ from each other and are none of `taken`. -/
structure Fresh (s : Supply) (taken : List String) : Prop where
  distinct : ∀ i j, s.used ≤ i → i < j → s.ids i ≠ s.ids j
  new : ∀ i, s.used ≤ i → s.ids i ∉ taken

end Supply

end Letterpress
