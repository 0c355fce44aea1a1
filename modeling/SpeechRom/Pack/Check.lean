import SpeechRom.BuildError

/-!
# Checking a pack before it is linked

A pack can be played when the bank to start from exists, no bank is empty, and
no bank asks for itself, directly or through others.  The last point is a
depth-first search through the references.

## Strategy

`explore` carries the chain of banks being visited, newest first, and the list of
banks that are done.  A reference into the chain closes a ring; the ring is the
part of the chain from there on.  Every nested call puts a new bank on the
chain, so the number of banks bounds the depth, which is where the fuel of
`explore` comes from.
-/

namespace SpeechRom.Pack

/-- The name of a bank; a handle without entry has none. -/
def bankName (pack : Pack) (id : BankId) : String := ((pack.bank? id).map (·.name)).getD ""

/-- The ring that a reference to `target` closes, given the chain of open visits. -/
def ring (pack : Pack) (chain : List BankId) (target : BankId) : List String :=
  pack.bankName target ::
    ((chain.takeWhile fun bank => bank ≠ target).reverse.map pack.bankName ++
      [pack.bankName target])

/-- Visit a bank and all it asks for; the answer is the list of banks that are done. -/
def explore (pack : Pack) : (fuel : Nat) → (chain done : List BankId) → BankId →
    Except BuildError (List BankId)
  | 0, _, done, _ => .ok done
  | fuel + 1, chain, done, bank => do
    let references := ((pack.bank? bank).map Bank.references).getD []
    let done ← references.foldlM (fun done target =>
      if target ∈ done then .ok done
      else if target ∈ bank :: chain then .error (.ring (pack.ring (bank :: chain) target))
      else explore pack fuel (bank :: chain) done target) done
    return bank :: done

/-- Visit every bank in order; fails with the first ring met. -/
def exploreAll (pack : Pack) : Except BuildError (List BankId) :=
  ((List.range pack.banks.size).map BankId.mk).foldlM (fun done bank =>
    if bank ∈ done then .ok done else pack.explore pack.banks.size [] done bank) []

/-- The bank to start from, if the pack can be played from it. -/
def check (pack : Pack) (primary : String) : Except BuildError BankId :=
  match pack.findBank? primary with
  | none => .error (.missingPrimary primary)
  | some start =>
    match pack.banks.values.find? fun bank => bank.phrases.isEmpty with
    | some bank => .error (.emptyBank bank.name)
    | none => do
      let _ ← pack.exploreAll
      return start.id

end SpeechRom.Pack
