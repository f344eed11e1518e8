import Bluetape.Base.BinaryReader
import Bluetape.Base.TextCodec

/-!
# Currencies

The current ISO 4217 rows, and the lookup of a currency by its code or by its number.
A currency is a row of the table.

* `getCurrency_code`: every currency is found under its code.
-/

namespace Bluetape
namespace Monetary

open Base

/-- The exceptions of the package. -/
inductive MoneyError
  | invalidCurrency (message : String)
  | invalidAmount (message : String)
  | currencyMismatch (message : String)
  | invalidExchangeRate (message : String)
  | zeroDivision (message : String)
deriving DecidableEq, Repr

/-- The fields of `Currency`. -/
structure CurrencyRow where
  code : Text
  numericCode : Text
  name : Text
  minorUnit : Option Nat
deriving DecidableEq

/-- `CURRENCY_ROWS` -/
def currencyRows : List CurrencyRow := [
  ⟨text "AED", text "784", text "UAE Dirham", some 2⟩,
  ⟨text "AFN", text "971", text "Afghani", some 2⟩,
  ⟨text "ALL", text "008", text "Lek", some 2⟩,
  ⟨text "AMD", text "051", text "Armenian Dram", some 2⟩,
  ⟨text "AOA", text "973", text "Kwanza", some 2⟩,
  ⟨text "ARS", text "032", text "Argentine Peso", some 2⟩,
  ⟨text "AUD", text "036", text "Australian Dollar", some 2⟩,
  ⟨text "AWG", text "533", text "Aruban Florin", some 2⟩,
  ⟨text "AZN", text "944", text "Azerbaijan Manat", some 2⟩,
  ⟨text "BAM", text "977", text "Convertible Mark", some 2⟩,
  ⟨text "BBD", text "052", text "Barbados Dollar", some 2⟩,
  ⟨text "BDT", text "050", text "Taka", some 2⟩,
  ⟨text "BHD", text "048", text "Bahraini Dinar", some 3⟩,
  ⟨text "BIF", text "108", text "Burundi Franc", some 0⟩,
  ⟨text "BMD", text "060", text "Bermudian Dollar", some 2⟩,
  ⟨text "BND", text "096", text "Brunei Dollar", some 2⟩,
  ⟨text "BOB", text "068", text "Boliviano", some 2⟩,
  ⟨text "BOV", text "984", text "Mvdol", some 2⟩,
  ⟨text "BRL", text "986", text "Brazilian Real", some 2⟩,
  ⟨text "BSD", text "044", text "Bahamian Dollar", some 2⟩,
  ⟨text "BTN", text "064", text "Ngultrum", some 2⟩,
  ⟨text "BWP", text "072", text "Pula", some 2⟩,
  ⟨text "BYN", text "933", text "Belarusian Ruble", some 2⟩,
  ⟨text "BZD", text "084", text "Belize Dollar", some 2⟩,
  ⟨text "CAD", text "124", text "Canadian Dollar", some 2⟩,
  ⟨text "CDF", text "976", text "Congolese Franc", some 2⟩,
  ⟨text "CHE", text "947", text "WIR Euro", some 2⟩,
  ⟨text "CHF", text "756", text "Swiss Franc", some 2⟩,
  ⟨text "CHW", text "948", text "WIR Franc", some 2⟩,
  ⟨text "CLF", text "990", text "Unidad de Fomento", some 4⟩,
  ⟨text "CLP", text "152", text "Chilean Peso", some 0⟩,
  ⟨text "CNY", text "156", text "Yuan Renminbi", some 2⟩,
  ⟨text "COP", text "170", text "Colombian Peso", some 2⟩,
  ⟨text "COU", text "970", text "Unidad de Valor Real", some 2⟩,
  ⟨text "CRC", text "188", text "Costa Rican Colon", some 2⟩,
  ⟨text "CUP", text "192", text "Cuban Peso", some 2⟩,
  ⟨text "CVE", text "132", text "Cabo Verde Escudo", some 2⟩,
  ⟨text "CZK", text "203", text "Czech Koruna", some 2⟩,
  ⟨text "DJF", text "262", text "Djibouti Franc", some 0⟩,
  ⟨text "DKK", text "208", text "Danish Krone", some 2⟩,
  ⟨text "DOP", text "214", text "Dominican Peso", some 2⟩,
  ⟨text "DZD", text "012", text "Algerian Dinar", some 2⟩,
  ⟨text "EGP", text "818", text "Egyptian Pound", some 2⟩,
  ⟨text "ERN", text "232", text "Nakfa", some 2⟩,
  ⟨text "ETB", text "230", text "Ethiopian Birr", some 2⟩,
  ⟨text "EUR", text "978", text "Euro", some 2⟩,
  ⟨text "FJD", text "242", text "Fiji Dollar", some 2⟩,
  ⟨text "FKP", text "238", text "Falkland Islands Pound", some 2⟩,
  ⟨text "GBP", text "826", text "Pound Sterling", some 2⟩,
  ⟨text "GEL", text "981", text "Lari", some 2⟩,
  ⟨text "GHS", text "936", text "Ghana Cedi", some 2⟩,
  ⟨text "GIP", text "292", text "Gibraltar Pound", some 2⟩,
  ⟨text "GMD", text "270", text "Dalasi", some 2⟩,
  ⟨text "GNF", text "324", text "Guinean Franc", some 0⟩,
  ⟨text "GTQ", text "320", text "Quetzal", some 2⟩,
  ⟨text "GYD", text "328", text "Guyana Dollar", some 2⟩,
  ⟨text "HKD", text "344", text "Hong Kong Dollar", some 2⟩,
  ⟨text "HNL", text "340", text "Lempira", some 2⟩,
  ⟨text "HTG", text "332", text "Gourde", some 2⟩,
  ⟨text "HUF", text "348", text "Forint", some 2⟩,
  ⟨text "IDR", text "360", text "Rupiah", some 2⟩,
  ⟨text "ILS", text "376", text "New Israeli Sheqel", some 2⟩,
  ⟨text "INR", text "356", text "Indian Rupee", some 2⟩,
  ⟨text "IQD", text "368", text "Iraqi Dinar", some 3⟩,
  ⟨text "IRR", text "364", text "Iranian Rial", some 2⟩,
  ⟨text "ISK", text "352", text "Iceland Krona", some 0⟩,
  ⟨text "JMD", text "388", text "Jamaican Dollar", some 2⟩,
  ⟨text "JOD", text "400", text "Jordanian Dinar", some 3⟩,
  ⟨text "JPY", text "392", text "Yen", some 0⟩,
  ⟨text "KES", text "404", text "Kenyan Shilling", some 2⟩,
  ⟨text "KGS", text "417", text "Som", some 2⟩,
  ⟨text "KHR", text "116", text "Riel", some 2⟩,
  ⟨text "KMF", text "174", text "Comorian Franc", some 0⟩,
  ⟨text "KPW", text "408", text "North Korean Won", some 2⟩,
  ⟨text "KRW", text "410", text "Won", some 0⟩,
  ⟨text "KWD", text "414", text "Kuwaiti Dinar", some 3⟩,
  ⟨text "KYD", text "136", text "Cayman Islands Dollar", some 2⟩,
  ⟨text "KZT", text "398", text "Tenge", some 2⟩,
  ⟨text "LAK", text "418", text "Lao Kip", some 2⟩,
  ⟨text "LBP", text "422", text "Lebanese Pound", some 2⟩,
  ⟨text "LKR", text "144", text "Sri Lanka Rupee", some 2⟩,
  ⟨text "LRD", text "430", text "Liberian Dollar", some 2⟩,
  ⟨text "LSL", text "426", text "Loti", some 2⟩,
  ⟨text "LYD", text "434", text "Libyan Dinar", some 3⟩,
  ⟨text "MAD", text "504", text "Moroccan Dirham", some 2⟩,
  ⟨text "MDL", text "498", text "Moldovan Leu", some 2⟩,
  ⟨text "MGA", text "969", text "Malagasy Ariary", some 2⟩,
  ⟨text "MKD", text "807", text "Denar", some 2⟩,
  ⟨text "MMK", text "104", text "Kyat", some 2⟩,
  ⟨text "MNT", text "496", text "Tugrik", some 2⟩,
  ⟨text "MOP", text "446", text "Pataca", some 2⟩,
  ⟨text "MRU", text "929", text "Ouguiya", some 2⟩,
  ⟨text "MUR", text "480", text "Mauritius Rupee", some 2⟩,
  ⟨text "MVR", text "462", text "Rufiyaa", some 2⟩,
  ⟨text "MWK", text "454", text "Malawi Kwacha", some 2⟩,
  ⟨text "MXN", text "484", text "Mexican Peso", some 2⟩,
  ⟨text "MXV", text "979", text "Mexican Unidad de Inversion (UDI)", some 2⟩,
  ⟨text "MYR", text "458", text "Malaysian Ringgit", some 2⟩,
  ⟨text "MZN", text "943", text "Mozambique Metical", some 2⟩,
  ⟨text "NAD", text "516", text "Namibia Dollar", some 2⟩,
  ⟨text "NGN", text "566", text "Naira", some 2⟩,
  ⟨text "NIO", text "558", text "Cordoba Oro", some 2⟩,
  ⟨text "NOK", text "578", text "Norwegian Krone", some 2⟩,
  ⟨text "NPR", text "524", text "Nepalese Rupee", some 2⟩,
  ⟨text "NZD", text "554", text "New Zealand Dollar", some 2⟩,
  ⟨text "OMR", text "512", text "Rial Omani", some 3⟩,
  ⟨text "PAB", text "590", text "Balboa", some 2⟩,
  ⟨text "PEN", text "604", text "Sol", some 2⟩,
  ⟨text "PGK", text "598", text "Kina", some 2⟩,
  ⟨text "PHP", text "608", text "Philippine Peso", some 2⟩,
  ⟨text "PKR", text "586", text "Pakistan Rupee", some 2⟩,
  ⟨text "PLN", text "985", text "Zloty", some 2⟩,
  ⟨text "PYG", text "600", text "Guarani", some 0⟩,
  ⟨text "QAR", text "634", text "Qatari Rial", some 2⟩,
  ⟨text "RON", text "946", text "Romanian Leu", some 2⟩,
  ⟨text "RSD", text "941", text "Serbian Dinar", some 2⟩,
  ⟨text "RUB", text "643", text "Russian Ruble", some 2⟩,
  ⟨text "RWF", text "646", text "Rwanda Franc", some 0⟩,
  ⟨text "SAR", text "682", text "Saudi Riyal", some 2⟩,
  ⟨text "SBD", text "090", text "Solomon Islands Dollar", some 2⟩,
  ⟨text "SCR", text "690", text "Seychelles Rupee", some 2⟩,
  ⟨text "SDG", text "938", text "Sudanese Pound", some 2⟩,
  ⟨text "SEK", text "752", text "Swedish Krona", some 2⟩,
  ⟨text "SGD", text "702", text "Singapore Dollar", some 2⟩,
  ⟨text "SHP", text "654", text "Saint Helena Pound", some 2⟩,
  ⟨text "SLE", text "925", text "Leone", some 2⟩,
  ⟨text "SOS", text "706", text "Somali Shilling", some 2⟩,
  ⟨text "SRD", text "968", text "Surinam Dollar", some 2⟩,
  ⟨text "SSP", text "728", text "South Sudanese Pound", some 2⟩,
  ⟨text "STN", text "930", text "Dobra", some 2⟩,
  ⟨text "SVC", text "222", text "El Salvador Colon", some 2⟩,
  ⟨text "SYP", text "760", text "Syrian Pound", some 2⟩,
  ⟨text "SZL", text "748", text "Lilangeni", some 2⟩,
  ⟨text "THB", text "764", text "Baht", some 2⟩,
  ⟨text "TJS", text "972", text "Somoni", some 2⟩,
  ⟨text "TMT", text "934", text "Turkmenistan New Manat", some 2⟩,
  ⟨text "TND", text "788", text "Tunisian Dinar", some 3⟩,
  ⟨text "TOP", text "776", text "Pa’anga", some 2⟩,
  ⟨text "TRY", text "949", text "Turkish Lira", some 2⟩,
  ⟨text "TTD", text "780", text "Trinidad and Tobago Dollar", some 2⟩,
  ⟨text "TWD", text "901", text "New Taiwan Dollar", some 2⟩,
  ⟨text "TZS", text "834", text "Tanzanian Shilling", some 2⟩,
  ⟨text "UAH", text "980", text "Hryvnia", some 2⟩,
  ⟨text "UGX", text "800", text "Uganda Shilling", some 0⟩,
  ⟨text "USD", text "840", text "US Dollar", some 2⟩,
  ⟨text "USN", text "997", text "US Dollar (Next day)", some 2⟩,
  ⟨text "UYI", text "940", text "Uruguay Peso en Unidades Indexadas (UI)", some 0⟩,
  ⟨text "UYU", text "858", text "Peso Uruguayo", some 2⟩,
  ⟨text "UYW", text "927", text "Unidad Previsional", some 4⟩,
  ⟨text "UZS", text "860", text "Uzbekistan Sum", some 2⟩,
  ⟨text "VED", text "926", text "Bolívar Soberano", some 2⟩,
  ⟨text "VES", text "928", text "Bolívar Soberano", some 2⟩,
  ⟨text "VND", text "704", text "Dong", some 0⟩,
  ⟨text "VUV", text "548", text "Vatu", some 0⟩,
  ⟨text "WST", text "882", text "Tala", some 2⟩,
  ⟨text "XAD", text "396", text "Arab Accounting Dinar", some 2⟩,
  ⟨text "XAF", text "950", text "CFA Franc BEAC", some 0⟩,
  ⟨text "XAG", text "961", text "Silver", none⟩,
  ⟨text "XAU", text "959", text "Gold", none⟩,
  ⟨text "XBA", text "955", text "Bond Markets Unit European Composite Unit (EURCO)", none⟩,
  ⟨text "XBB", text "956", text "Bond Markets Unit European Monetary Unit (E.M.U.-6)", none⟩,
  ⟨text "XBC", text "957", text "Bond Markets Unit European Unit of Account 9 (E.U.A.-9)", none⟩,
  ⟨text "XBD", text "958", text "Bond Markets Unit European Unit of Account 17 (E.U.A.-17)", none⟩,
  ⟨text "XCD", text "951", text "East Caribbean Dollar", some 2⟩,
  ⟨text "XCG", text "532", text "Caribbean Guilder", some 2⟩,
  ⟨text "XDR", text "960", text "SDR (Special Drawing Right)", none⟩,
  ⟨text "XOF", text "952", text "CFA Franc BCEAO", some 0⟩,
  ⟨text "XPD", text "964", text "Palladium", none⟩,
  ⟨text "XPF", text "953", text "CFP Franc", some 0⟩,
  ⟨text "XPT", text "962", text "Platinum", none⟩,
  ⟨text "XSU", text "994", text "Sucre", none⟩,
  ⟨text "XUA", text "965", text "ADB Unit of Account", none⟩,
  ⟨text "YER", text "886", text "Yemeni Rial", some 2⟩,
  ⟨text "ZAR", text "710", text "Rand", some 2⟩,
  ⟨text "ZMW", text "967", text "Zambian Kwacha", some 2⟩,
  ⟨text "ZWG", text "924", text "Zimbabwe Gold", some 2⟩]

/-- `Currency`: its constructor accepts the rows of the table. -/
structure Currency where
  row : CurrencyRow
  registered : row ∈ currencyRows
deriving DecidableEq

/-- `str.isspace`, of one character -/
def isSpace (p : CodePoint) : Bool :=
  decide (0x09 ≤ p.ord ∧ p.ord ≤ 0x0D ∨ 0x1C ≤ p.ord ∧ p.ord ≤ 0x20 ∨ p.ord = 0x85 ∨
    p.ord = 0xA0 ∨ p.ord = 0x1680 ∨ 0x2000 ≤ p.ord ∧ p.ord ≤ 0x200A ∨ p.ord = 0x2028 ∨
    p.ord = 0x2029 ∨ p.ord = 0x202F ∨ p.ord = 0x205F ∨ p.ord = 0x3000)

/-- `value != value.strip()` -/
def isUntrimmed (t : Text) : Bool :=
  t.head?.any isSpace || t.getLast?.any isSpace

/-- `str.isascii` -/
def isAscii (t : Text) : Bool :=
  t.all fun p => decide (p.ord < 0x80)

/-- `str.isdigit`, of an ASCII text -/
def isDigits (t : Text) : Bool :=
  t.all fun p => decide (0x30 ≤ p.ord ∧ p.ord ≤ 0x39)

/-- `str.upper`, of an ASCII text -/
def upper (t : Text) : Text :=
  t.map fun p => if 0x61 ≤ p.ord ∧ p.ord ≤ 0x7A then .scalar (Char.ofNat (p.ord - 0x20)) else p

/-- The currency of a row that satisfies the predicate. -/
def findCurrency (p : CurrencyRow → Bool) : Option Currency :=
  match h : currencyRows.find? p with
  | none => none
  | some row => some ⟨row, List.mem_of_find?_eq_some h⟩

/-- `_CURRENCIES_BY_CODE.get` -/
def currencyByCode (code : Text) : Option Currency :=
  findCurrency fun row => row.code = code

/-- `_CURRENCIES_BY_NUMERIC.get` -/
def currencyByNumeric (numericCode : Text) : Option Currency :=
  findCurrency fun row => row.numericCode = numericCode

/-- `get_currency`, of a string -/
def getCurrency (code : Text) : Except MoneyError Currency := do
  raiseIf (code = [] ∨ isUntrimmed code)
    (.invalidCurrency "currency code must be non-blank and trimmed")
  orRaise (.invalidCurrency "currency code is unknown")
    (if code.length = 3 ∧ isAscii code then
      if isDigits code then currencyByNumeric code else currencyByCode (upper code)
    else none)

/-! ## Every currency is found -/

/-- The number that a code is in base 256. -/
def codeKey (code : Text) : Nat :=
  code.foldl (fun n p => n * 0x100 + p.ord) 0

set_option maxRecDepth 50000 in
/-- The table is in the order of the codes. -/
theorem currencyRows_sorted :
    (currencyRows.map fun row => codeKey row.code).IsChain (· < ·) := by
  decide

set_option maxRecDepth 50000 in
/-- Codes are three capital letters. -/
theorem code_capitals :
    ∀ row ∈ currencyRows, row.code.length = 3 ∧ isUntrimmed row.code = false ∧
      isAscii row.code = true ∧ isDigits row.code = false ∧ upper row.code = row.code := by
  decide

/-- A table in the order of its keys has one row for each key. -/
theorem find?_of_pairwise
    {α : Type} {key : α → Nat} {p : α → Bool} {as : List α} {a : α}
    (hsorted : (as.map key).Pairwise (· < ·))
    (ha : a ∈ as) (hp : p a = true)
    (hkey : ∀ b, p b = true → key b = key a) :
    as.find? p = some a := by
  induction as with
  | nil =>
      cases ha
  | cons b as ih =>
      rw [List.map_cons, List.pairwise_cons] at hsorted
      rcases List.mem_cons.mp ha with rfl | htail
      · exact List.find?_cons_of_pos hp
      · have hlt := hsorted.1 (key a) (List.mem_map_of_mem htail)
        have hb : p b = false := by
          by_contra hb
          have hsame := hkey b (by simpa using hb)
          omega
        rw [List.find?_cons_of_neg (by simp [hb])]
        exact ih hsorted.2 htail

/-- **Every currency** is found under its code. -/
theorem getCurrency_code
    (c : Currency) :
    getCurrency c.row.code = .ok c := by
  obtain ⟨hlength, htrimmed, hascii, hdigits, hupper⟩ := code_capitals c.row c.registered
  have hne : c.row.code ≠ [] := by
    intro hnil
    rw [hnil] at hlength
    cases hlength
  have hfind : currencyRows.find? (fun row => row.code = c.row.code) = some c.row := by
    refine find?_of_pairwise (List.isChain_iff_pairwise.mp currencyRows_sorted) c.registered
      (by simp) fun b hb => ?_
    rw [of_decide_eq_true hb]
  have hcurrency : currencyByCode c.row.code = some c := by
    unfold currencyByCode findCurrency
    split
    · next hnone =>
        rw [hfind] at hnone
        cases hnone
    · next row hsome =>
        rw [hfind] at hsome
        obtain rfl := Option.some.inj hsome
        rfl
  unfold getCurrency
  simp [raiseIf, hne, htrimmed, hlength, hascii, hdigits, hupper, hcurrency, orRaise, bind,
    Except.bind]

/-- The row of the dollar. -/
def usdRow : CurrencyRow :=
  ⟨text "USD", text "840", text "US Dollar", some 2⟩

/-- The row of the euro. -/
def eurRow : CurrencyRow :=
  ⟨text "EUR", text "978", text "Euro", some 2⟩

theorem usdRow_registered :
    usdRow ∈ currencyRows :=
  List.mem_of_getElem? (i := 144) rfl

theorem eurRow_registered :
    eurRow ∈ currencyRows :=
  List.mem_of_getElem? (i := 45) rfl

/-- `USD` -/
def usd : Currency :=
  ⟨usdRow, usdRow_registered⟩

/-- `EUR` -/
def eur : Currency :=
  ⟨eurRow, eurRow_registered⟩

end Monetary
end Bluetape
