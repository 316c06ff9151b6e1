import InvoiceReservation.Model.Services
/-!
# What a request carries

What `ParseUUIDPipe` and the DTOs of `src/capacity/api/dto` let through to
the services, and the correlation middleware. The invoice of a release or a
cancellation is the route's, and the note of a cancellation the body's: any
text.
-/

namespace InvoiceReservation

/-- A hex digit in either case. -/
def isHexDigit (c : Char) : Bool :=
  '0' ≤ c && c ≤ '9' || 'a' ≤ c && c ≤ 'f' || 'A' ≤ c && c ≤ 'F'

/-- The text of a UUID: 36 characters, hex digits in five groups. -/
def isUuidText (text : String) : Bool :=
  text.toList.length = 36 && text.toList.zipIdx.all fun (c, i) =>
    if i = 8 ∨ i = 13 ∨ i = 18 ∨ i = 23 then c = '-' else isHexDigit c

/-- `PositiveMoneyDto`: a strictly positive amount that fits a signed 64-bit
value, and a currency. -/
structure PositiveMoney (amountMinor : Int) (currency : String) : Prop where
  positive : 1 ≤ amountMinor
  fitsInt64 : amountMinor ≤ 2 ^ 63 - 1
  currency : isCurrencyCode currency = true

/-- `createReservation`'s checks. -/
structure ReserveCommand.Admitted (command : ReserveCommand) : Prop where
  programId : isUuidText command.programId = true
  amount : PositiveMoney command.amountMinor command.currency

/-- `createRelease`'s checks. -/
structure ReleaseCommand.Admitted (command : ReleaseCommand) : Prop where
  programId : isUuidText command.programId = true
  amount : PositiveMoney command.releaseMinor command.currency

/-- `cancelReservation`'s checks. That the reason is one of two is in its
type. -/
structure CancelCommand.Admitted (command : CancelCommand) : Prop where
  programId : isUuidText command.programId = true

/-- `CORRELATION_PATTERN`, and the lengths of `sanitiseCorrelationId`. An id
the middleware generates is one, and so is the `'unknown'` of a request that
has none. -/
def isCorrelationId (text : String) : Bool :=
  1 ≤ text.toList.length && text.toList.length ≤ 128 && text.toList.all fun c =>
    'A' ≤ c && c ≤ 'Z' || 'a' ≤ c && c ≤ 'z' || '0' ≤ c && c ≤ '9' || c ∈ ['.', '_', ':', '-']

/-- The texts a write is sent with: a key and an invoice that a `TEXT` column
can hold, and the middleware's correlation. -/
structure WriteTexts (requestId invoiceId correlationId : String) : Prop where
  requestId : storableText requestId = true
  invoiceId : storableText invoiceId = true
  correlationId : isCorrelationId correlationId = true

end InvoiceReservation
