import InvoiceReservation.Model.Consumer
import InvoiceReservation.Model.Rates
import InvoiceReservation.Model.System
/-!
# The seeded database

`scripts/seed.ts`: the organisations, the programs and the rates it
inserts, and a database with nothing else in it. Then a little traffic of
the first program, which the examples of the properties share.
-/

namespace InvoiceReservation

open Transactions

/-- `NORTHWIND_ORGANISATION_ID`. -/
def northwindOrganisationId : Uuid := Uuid.ofText "a1b2c3d4-0001-4000-8000-000000000001"

/-- `CONTOSO_ORGANISATION_ID`. -/
def contosoOrganisationId : Uuid := Uuid.ofText "a1b2c3d4-0002-4000-8000-000000000002"

/-- `NORTHWIND_USD_PROGRAM_ID`. -/
def northwindUsdProgramId : String := "b1b2c3d4-0001-4000-8000-000000000011"

/-- `NORTHWIND_EUR_PROGRAM_ID`. -/
def northwindEurProgramId : String := "b1b2c3d4-0002-4000-8000-000000000012"

/-- `CONTOSO_USD_PROGRAM_ID`. -/
def contosoUsdProgramId : String := "b1b2c3d4-0003-4000-8000-000000000013"

/-- `ORGANISATIONS`. -/
def organisations : List Uuid := [northwindOrganisationId, contosoOrganisationId]

/-- `PROGRAMS`. -/
def programs : List ProgramSeed :=
  [⟨northwindUsdProgramId, northwindOrganisationId, "USD", 1000000000⟩,
   ⟨northwindEurProgramId, northwindOrganisationId, "EUR", 500000000⟩,
   ⟨contosoUsdProgramId, contosoOrganisationId, "USD", 200000000⟩]

/-- `FX_RATES`. -/
def fxRates : List FxRateRow :=
  [⟨"EUR", "USD", 0, "1.0850000000", "seed"⟩, ⟨"USD", "EUR", 0, "0.9216589862", "seed"⟩]

/-- The migrated database, with its organisations. -/
def Db.initial (organisations : List Uuid) : Db := ⟨organisations, [], [], [], [], [], [], []⟩

/-- The database before its programs are seeded. -/
def migrated : Db := Db.initial organisations

/-- The seed's digests are asked for by no statement of its own: it runs
under any. -/
def seeded [Sha256] : Db := Operation.run [.seed 0 programs] migrated

/-! ## Its rows -/

/-- The row of a program as the seed leaves it. -/
def seededProgram (id organisationId : Uuid) (currency : String) (creditLimitMinor : Int) :
    ProgramEntity :=
  ⟨⟨id, currency, creditLimitMinor, 0, 0, 2, none, false, true⟩, organisationId, 0, none, none, 0⟩

/-- Its entry. -/
def seededEntry (id : Uuid) (creditLimitMinor : Int) : CapacityLedgerEntryEntity :=
  ⟨⟨⟨creditLimitMinor, .limit, .limitChange, none, "seed", "seed-limit-change"⟩, 1⟩, id, 0⟩

/-- The seeded database, its rows written out. -/
def seededRows : Db where
  organisations := [0xa1b2c3d4000140008000000000000001, 0xa1b2c3d4000240008000000000000002]
  programs := [
    seededProgram 0xb1b2c3d4000140008000000000000011 0xa1b2c3d4000140008000000000000001 "USD"
      1000000000,
    seededProgram 0xb1b2c3d4000240008000000000000012 0xa1b2c3d4000140008000000000000001 "EUR"
      500000000,
    seededProgram 0xb1b2c3d4000340008000000000000013 0xa1b2c3d4000240008000000000000002 "USD"
      200000000]
  reservations := []
  ledger := [seededEntry 0xb1b2c3d4000140008000000000000011 1000000000,
    seededEntry 0xb1b2c3d4000240008000000000000012 500000000,
    seededEntry 0xb1b2c3d4000340008000000000000013 200000000]
  requests := []
  messages := []
  acknowledgements := []
  streamPositions := []

theorem effect_runSeed : engine.effect (runSeed 0 programs) migrated = seededRows := by
  decide +kernel

/-- **What the seed leaves**, whatever runs after it. -/
theorem run_seed [Sha256] (rest : List Operation) :
    Operation.run (.seed 0 programs :: rest) migrated = Operation.run rest seededRows := by
  have hseed : engine.effect (Operation.tx (.seed 0 programs)) migrated = seededRows := by
    rw [Operation.tx, Engine.effect_map, effect_runSeed]
  calc Operation.run (.seed 0 programs :: rest) migrated
    _ = Operation.run rest (engine.effect (Operation.tx (.seed 0 programs)) migrated) := by
      rw [Operation.run, Operation.run, serial, serial, List.foldl_cons]
    _ = Operation.run rest seededRows := by rw [hseed]

theorem seeded_eq [Sha256] : seeded = seededRows := by
  rw [seeded, run_seed, Operation.run, serial, List.foldl_nil]

/-! ## Traffic -/

/-- A call at a millisecond, with the configuration's defaults, no rate and no
stream observed. -/
def callAt (ms : Int) : Runtime where
  now := ms * 1000
  generatedId := BitVec.ofInt 128 ms
  rateFor _ _ _ := .ok none
  newestObservedFor _ := none
  deltaGuardBasisPoints := 5000

/-- The consumer, before it has consumed anything. -/
def freshConsumer [Sha256] : ConsumerState := ⟨seeded, [], []⟩

theorem freshConsumer_eq [Sha256] : freshConsumer = ⟨seededRows, [], []⟩ := by
  rw [freshConsumer, seeded_eq]

theorem freshConsumer_db [Sha256] :
    freshConsumer.db = Operation.run [.seed 0 programs] migrated := by
  rw [freshConsumer, seeded]

/-- The default retry policy. -/
def defaultPolicy : RetryPolicy := ⟨5⟩

/-- The organisation of the first program's callers, as its token has it. -/
def northwindActor : String := "a1b2c3d4-0001-4000-8000-000000000001"

/-- A reserve of the first program. -/
def reserveCommand (requestId invoiceId : String) (amountMinor : Int) : ReserveCommand :=
  ⟨northwindOrganisationId, northwindUsdProgramId, requestId, Utf.units invoiceId, amountMinor,
    "USD", northwindActor, requestId⟩

@[simp] theorem reserveCommand_invoiceText {requestId invoiceId : String} {amountMinor : Int} :
    (reserveCommand requestId invoiceId amountMinor).invoiceText = invoiceId :=
  Utf.text_units invoiceId

/-- A release in the first program. -/
def releaseCommand (requestId invoiceId : String) (releaseMinor : Int) : ReleaseCommand :=
  ⟨northwindOrganisationId, northwindUsdProgramId, requestId, invoiceId, releaseMinor, "USD",
    northwindActor, requestId⟩

/-- A cancellation in the first program. -/
def cancelCommand (requestId invoiceId : String) (note : Option String) : CancelCommand :=
  ⟨northwindOrganisationId, northwindUsdProgramId, requestId, invoiceId, .cancelled,
    note.map Utf.units, northwindActor, requestId⟩

/-- The seed, and a reserve of 100. -/
def reservedTraffic : List Operation :=
  [.seed 0 programs, .reserve (callAt 1) (reserveCommand "req-00001" "INV-1" 100)]

/-- An event of the first program. -/
def capacityEvent (messageId : String) (version : Int) (type : CapacityEventType)
    (amountMinor : Int) : CapacityEvent :=
  ⟨messageId, northwindUsdProgramId, version, 0, none, type, ⟨amountMinor, "USD", none⟩⟩

/-- A snapshot of the first program, with a marker that names no reservation. -/
def reconciliationSnapshot (messageId : String) (version creditLimitMinor reservedMinor : Int) :
    ReconciliationSnapshot :=
  ⟨messageId, northwindUsdProgramId, version, 0, none, "USD", creditLimitMinor, reservedMinor,
    some ⟨.explicit, some [], none⟩⟩

/-- A snapshot of the first program, with a marker for what was confirmed
through an instant. -/
def watermarkSnapshot (messageId : String) (version creditLimitMinor reservedMinor : Int)
    (ingestedThrough : Timestamp) : ReconciliationSnapshot :=
  { reconciliationSnapshot messageId version creditLimitMinor reservedMinor with
    acknowledgement := some ⟨.watermark, none, some ingestedThrough⟩ }

/-- The digests of this traffic's requests and messages. Under the identity a
hash is the text that is hashed. -/
@[reducible] def trafficSha256 : Sha256 := .ofTable [
  (northwindUsdProgramId ++ "|INV-1|100|USD",
    "5d326a9fba796fb067f587ea7553a7fff41b4bc3b6b3ceb2e4fb4310bf7e5193"),
  (northwindUsdProgramId ++ "|INV-2|100|USD",
    "3df0c6e3b64b6b34cde30b2a2e53e452aa0770fc9c9481a0cf33a4df9675babf"),
  (northwindUsdProgramId ++ "|\uFFFD|100|USD",
    "26dbb99a4ccbf6e2e854e5e1b15887d2badcb373b97c080879bb36b0b38dbf8a"),
  (northwindUsdProgramId ++ "|INV-1|CANCELLED|x|100|USD",
    "b9ea1c35b3bc343c65e81d1df95efa01902dcda89506e33f16e49b4a6018b8f5"),
  (northwindUsdProgramId ++ "|INV-1|CANCELLED|x|CANCELLED|y",
    "93ca2193dd341c0a4aef1eb19d9ef5fb85aed1568fda1f42710f864ffd01755b"),
  (@capacityEventContentHash ⟨id⟩ (capacityEvent "" 1 .reservationBooked 100),
    "cb50d94b8c90c43183bb93ad7605664e4da74b1b284fa9cc6b1b5d2eb8ce3146"),
  (@capacityEventContentHash ⟨id⟩
      { capacityEvent "" 1 .reservationBooked 100 with payload := ⟨100, "USD", some "INV-1"⟩ },
    "c460b7d2eb6cc66788a3ac50e5aa7bdc8b207b7d1c919165f96c4b0bc973d642"),
  (@capacityEventContentHash ⟨id⟩ (capacityEvent "" 1 .reservationReleased 100),
    "b943f7b67aa5e91cc7fea86f5e9f38df55293579cf8f90dfebeef721bbfc2d5d"),
  (@capacityEventContentHash ⟨id⟩ (capacityEvent "" 1 .limitChanged 100),
    "cf537b85f92104495cca5d8c1651cc7edf98847a61e33db9607f3e6fb4256f67"),
  (@capacityEventContentHash ⟨id⟩ (capacityEvent "" 1 .limitChanged 200),
    "d521c73f68745c6144b6637d3a5bfc33c91d01cb66eafe97b704ac5764e68f9f"),
  (@reconciliationSnapshotContentHash ⟨id⟩ (reconciliationSnapshot "" 1 1000000000 100),
    "f945bfff2a326d577fcfb581743a8526b7003c92975a69faf15b9ac9abbf0393"),
  (@reconciliationSnapshotContentHash ⟨id⟩ (watermarkSnapshot "" 1 1000000000 100 1000),
    "bf28ea872345cb6171ce78d9c0b76531d127f489129b4353173d0b9447763be7")]

/-- Where a message of the first program lies. -/
def coordinatesAt (topic : String) (offset : Int) : StreamCoordinates := ⟨topic, 0, offset⟩

/-- A message delivered at a millisecond, and at the offset of its number. -/
def deliverAt (ms : Int) : TreasuryMessage → InboundMessage
  | .event message => ⟨callAt ms, .event message, coordinatesAt "treasury.capacity.events" ms⟩
  | .snapshot message =>
    ⟨callAt ms, .snapshot message, coordinatesAt "treasury.capacity.snapshots" ms⟩

end InvoiceReservation
