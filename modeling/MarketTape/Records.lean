/-!
# Records of comma-separated text

A file of comma-separated values is a sequence of records, and a record a sequence of fields.  Any
of the two line ends closes a record, and a line without anything in it is no record.  A field that
starts with a quote goes on to the next single quote, whatever stands in between; a quote inside is
written twice, and what follows the closing quote still belongs to the field.

* `Records.Place` is where the reading stands between two bytes, `Records.scan` reads on from there.
* `Records.ofBytes` gives the records of a file.
-/

namespace MarketTape.Records

abbrev Field := List UInt8

abbrev Record := List Field

/-- Where the reading stands: before the first byte of a record, before the first byte of a field,
inside a field, inside quotes, or after a quote inside quotes. -/
inductive Place
  | recordStart
  | fieldStart
  | inField
  | inQuotes
  | afterQuote
  deriving DecidableEq, Repr

def comma : UInt8 := 0x2c

def quote : UInt8 := 0x22

def endsLine (b : UInt8) : Bool := b == 0x0a || b == 0x0d

/-- Reads on.  `field` holds the bytes of the field so far and `fields` the fields of the record so
far, both last first. -/
def scan : Place → Field → List Field → List UInt8 → List Record
  | .recordStart, _, _, [] => []
  | _, field, fields, [] => [(field.reverse :: fields).reverse]
  | .recordStart, _, _, b :: rest =>
    if endsLine b then scan .recordStart [] [] rest
    else if b = quote then scan .inQuotes [] [] rest
    else if b = comma then scan .fieldStart [] [[]] rest
    else scan .inField [b] [] rest
  | .fieldStart, _, fields, b :: rest =>
    if endsLine b then ([] :: fields).reverse :: scan .recordStart [] [] rest
    else if b = quote then scan .inQuotes [] fields rest
    else if b = comma then scan .fieldStart [] ([] :: fields) rest
    else scan .inField [b] fields rest
  | .inField, field, fields, b :: rest =>
    if endsLine b then (field.reverse :: fields).reverse :: scan .recordStart [] [] rest
    else if b = comma then scan .fieldStart [] (field.reverse :: fields) rest
    else scan .inField (b :: field) fields rest
  | .inQuotes, field, fields, b :: rest =>
    if b = quote then scan .afterQuote field fields rest
    else scan .inQuotes (b :: field) fields rest
  | .afterQuote, field, fields, b :: rest =>
    if endsLine b then (field.reverse :: fields).reverse :: scan .recordStart [] [] rest
    else if b = comma then scan .fieldStart [] (field.reverse :: fields) rest
    else if b = quote then scan .inQuotes (b :: field) fields rest
    else scan .inField (b :: field) fields rest

/-- Drops the mark that says that a file is UTF-8. -/
def dropMark : List UInt8 → List UInt8
  | 0xef :: 0xbb :: 0xbf :: rest => rest
  | bytes => bytes

/-- The records of a file. -/
def ofBytes (bytes : List UInt8) : List Record := scan .recordStart [] [] (dropMark bytes)

end MarketTape.Records
