import HostInventory.OrderedMap
import HostInventory.Numeral

/-! Flat records of facts: a text for each named field, numbers as decimal text. -/
namespace HostInventory

abbrev Facts := OrderedMap String String

namespace Facts

def insertNumber (f : Facts) (key : String) (n : UInt64) : Facts := f.insert key (Numeral.decimal n)

def insertCount (f : Facts) (key : String) (n : Nat) : Facts := f.insert key (toString n)

def number? (f : Facts) (key : String) : Option UInt64 := (f.get? key).bind Numeral.readCount?

end Facts

end HostInventory
