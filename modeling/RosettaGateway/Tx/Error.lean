import RosettaGateway.Tx.Basic

/-!
# Refusals of transactions and operations

One constructor for each cause; `TxError.message` has the wording.
-/

namespace RosettaGateway

/-- Why the account or the amount of an operation cannot be read. -/
inductive OperandError where
  | address (text : String)
  | missingAccount
  | amount (text : String)
  | missingAmount
  | currency (symbol : String)
  deriving DecidableEq

/-- The text of a refusal. -/
def OperandError.message : OperandError → String
  | .address text => "Invalid address: " ++ text
  | .missingAccount => "Invalid address: missing account"
  | .amount text => "Invalid amount: " ++ text
  | .missingAmount => "Invalid amount: missing amount"
  | .currency symbol => "Unsupported currency: " ++ symbol

/-- Why an entry of the metadata cannot be read. -/
inductive EntryFault where
  | notInteger (value : Json)
  | outOfRange (value : UInt64)
  | notAmount (value : Json)
  | notString (value : Json)
  | notHex
  | notAddress (text : String)
  | notReadable

/-- The text of a fault. -/
def EntryFault.message : EntryFault → String
  | .notInteger value => "not an integer: " ++ value.compress
  | .outOfRange value => "out of range: " ++ Numeral.ofNat value.toNat
  | .notAmount value => "not an amount: " ++ value.compress
  | .notString value => "not a string: " ++ value.compress
  | .notHex => "not hex"
  | .notAddress text => "not an address: " ++ text
  | .notReadable => "not readable"

/-- How a list of operations departs from the layout of a kind. Types are given as written; an index
is the one the operation gives itself, a position is its place in the list. -/
inductive LayoutFault where
  | expected (type : String) (position : Nat) (found : Option String)
  | unexpected (type : String) (position : Nat)
  | duplicate (coin : Denom) (type : String)
  | positive (type : String) (index : Int)
  | negative (type : String) (index : Int)
  | wrongCoin (type : String) (index : Int) (coin : Denom)
  | wrongAccount (type : String) (index : Int) (account : Address)
  | missing (type : String)
  | noInput
  | feeNotCovered
  | senderDiffers
  | receiverDiffers
  | sameAccount
  deriving DecidableEq

namespace LayoutFault

/-- How a message names an operation. -/
def subject (type : String) (index : Int) : String := type ++ " at index " ++ Numeral.ofInt index

/-- The text of a fault. -/
def message : LayoutFault → String
  | .expected type position found =>
    "expected " ++ type ++ " at index " ++ Numeral.ofNat position ++ ", found " ++
      found.getD "end of operations"
  | .unexpected type position => "unexpected " ++ type ++ " at index " ++ Numeral.ofNat position
  | .duplicate coin type => "duplicate " ++ coin.symbol ++ " leg for " ++ type
  | .positive type index => subject type index ++ " must not be positive"
  | .negative type index => subject type index ++ " must not be negative"
  | .wrongCoin type index coin => subject type index ++ " must be in " ++ coin.symbol
  | .wrongAccount type index account => subject type index ++ " must belong to " ++ account.toText
  | .missing type => "missing " ++ type
  | .noInput => "at least one SendTxInput pair is required"
  | .feeNotCovered => "first input spends less TFUEL than the fee"
  | .senderDiffers => "from address not matching"
  | .receiverDiffers => "to address not matching"
  | .sameAccount => "from and to accounts are the same"

end LayoutFault

/-- Why a list of operations does not fit a description. -/
inductive SlotFault where
  | count (kind : Tx.Kind) (expected got : Nat)
  | wrongType (kind : Tx.Kind) (position : Nat) (found expected : String)
  | operand (position : Nat) (cause : OperandError)
  | wrongCoin (kind : Tx.Kind) (position : Nat) (coin : Denom)
  | wrongSign (kind : Tx.Kind) (position : Nat)
  deriving DecidableEq

/-- The text of a fault. -/
def SlotFault.message : SlotFault → String
  | .count kind expected got =>
    kind.name ++ " expects " ++ Numeral.ofNat expected ++ " operations, got " ++ Numeral.ofNat got
  | .wrongType kind position found expected =>
    kind.name ++ ": operation " ++ Numeral.ofNat position ++ " is " ++ found ++ ", expected " ++
      expected
  | .operand position cause => "operation " ++ Numeral.ofNat position ++ ": " ++ cause.message
  | .wrongCoin kind position coin =>
    kind.name ++ ": operation " ++ Numeral.ofNat position ++ " must be in " ++ coin.symbol
  | .wrongSign kind position =>
    kind.name ++ ": operation " ++ Numeral.ofNat position ++ " has the wrong sign"

/-- Why a transaction, or a list of operations for one, is refused. -/
inductive TxError where
  | operand (cause : OperandError)
  | hash (text : String)
  | hex (text : String)
  | unknownKind (code : UInt64)
  | unsupportedType (name : String)
  | missingEntry (field : String)
  | invalidEntry (field : String) (fault : EntryFault)
  | layout (kind : Tx.Kind) (fault : LayoutFault)
  | unmatched (faults : List SlotFault)
  | malformedJson
  | wire (cause : Rlp.Error)
  | trailingBytes (count : Nat)

namespace TxError

/-- The reasons why a list of operations fits no description, as one text. -/
def unmatchedText (faults : List SlotFault) : String :=
  String.intercalate "; " (faults.map SlotFault.message)

/-- The text of a refusal. -/
def message : TxError → String
  | .operand cause => cause.message
  | .hash text => "Invalid hash: " ++ text
  | .hex text => "Invalid hex data: " ++ text
  | .unknownKind code => "Unknown transaction type: " ++ Numeral.ofNat code.toNat
  | .unsupportedType name => "Unsupported transaction type: " ++ name
  | .missingEntry field => "Missing metadata field: " ++ field
  | .invalidEntry field fault => "Invalid metadata field " ++ field ++ ": " ++ fault.message
  | .layout kind fault => "Operations do not match " ++ kind.name ++ ": " ++ fault.message
  | .unmatched faults => "Operations match no supported transaction: " ++ unmatchedText faults
  | .malformedJson => "Malformed transaction json: not the body of a transaction of this type"
  | .wire cause => "RLP decoding failed: " ++ cause.message
  | .trailingBytes count => "Trailing bytes after transaction: " ++ Numeral.ofNat count

end TxError

end RosettaGateway
