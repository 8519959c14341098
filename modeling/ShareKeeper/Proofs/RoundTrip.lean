import ShareKeeper.Proofs.StatusPatch
import ShareKeeper.Proofs.Times

/-!
# An object, written and read again

What is written of an object reads back as that object, the specification and the status of either kind
with all that is in them, if its metadata are such as can be written (`Metadata.Readable`) and its times
are regular. Metadata that can be written are just those that stand for some document
(`Metadata.readable_iff`). A time in a leap second within a minute has the text of the next second and is
read as that (`Resource.decode_encode_settle`). Nothing else can be lost on the way
(`Resource.decode_encode_iff`).

So a document may be written in many ways, with members in any order, with nulls, with two conditions of
one type. Once it was read, the object is settled: it can be written and read any number of times
(`Resource.round_trip`).
-/

namespace ShareKeeper

open Json

/-! ## Status -/

theorem Identity.decode_encode (i : Identity) : decode i.encode = .ok i := by
  have harn := optional_text i.encode "arn" i.arn (by simp [encode])
  have howner := optional_text i.encode "ownerAccountID" i.ownerAccountId (by simp [encode])
  have hregion := optional_text i.encode "region" i.region (by simp [encode])
  rw [show i.encode = .object i.encode.members from rfl]
  simp only [decode, asStructure, harn, howner, hregion, ok_bind]
  rfl

namespace Kind

variable {k : Kind}

theorem readsBack_identity (i : Identity) : ReadsBack Identity.decode Identity.encode i :=
  ⟨by simp [Identity.encode], i.decode_encode⟩

/-- The status of either kind reads back. -/
theorem readsBack_status (s : Status k.Facts) : ReadsBack k.decodeStatus k.encodeStatus s := by
  rw [ReadsBack, encodeStatus_eq s]
  refine ⟨by simp, decodeStatus_of_shows ?_ fun name v h _ => by rw [valueAt, h]; rfl⟩
  exact optional_of_valueAt (by rw [valueAt, lookup_identity]; rfl) readsBack_identity

end Kind

/-! ## Objects -/

/-- Metadata can be told from their text if they stand for any document at all. -/
theorem Metadata.readable_iff {m : Metadata} : m.Readable ↔ ∃ j, decode j = .ok m :=
  ⟨fun h => ⟨m.encode, decode_encode h⟩, fun ⟨_, h⟩ => readable_of_decode h⟩

namespace Resource

variable {k : Kind}

theorem decode_encode {r : Resource k} (h : r.metadata.Readable) : decode k r.encode = .ok r := by
  have hmetadata : field "metadata" Metadata.decode r.encode.members = .ok (some r.metadata) :=
    field_of_lookup rfl (Metadata.decode_encode h)
  have hspec : field "spec" k.decodeSpec r.encode.members = .ok (some r.spec) :=
    field_of_lookup (by simp [encode]) (Kind.decodeSpec_encodeSpec r.spec)
  have hstatus : optional "status" k.decodeStatus r.encode.members = .ok r.status :=
    optional_of_lookup_map (by simp [encode]) fun s _ => Kind.readsBack_status s
  exact decode_of_parts hmetadata hspec hstatus

theorem readable_of_decode {j : Json} {r : Resource k} (h : decode k j = .ok r) :
    r.metadata.Readable :=
  Metadata.readable_iff.mpr (exists_metadata_of_decode h)

/-- An object whose times may be in leap seconds reads back as the one that it settles to. -/
theorem decode_encode_settle {r : Resource k DateTime} (h : r.metadata.Readable) :
    decode k r.encode = .ok (r.mapTimes DateTime.settle) := by
  have htext : ∀ t : DateTime, toString t.settle = toString t := DateTime.render_settle
  have hsettled : decode k (r.mapTimes DateTime.settle).encode = .ok (r.mapTimes DateTime.settle) :=
    decode_encode h
  rwa [encode_mapTimes htext] at hsettled

/-- The object, with its instants as dates and times among all others. -/
def withDateTimes (r : Resource k) : Resource k DateTime := r.mapTimes Instant.toDateTime

theorem withDateTimes_settle_iff {r : Resource k DateTime} :
    (r.mapTimes DateTime.settle).withDateTimes = r ↔ ∀ t ∈ r.times, t.Regular := by
  rw [withDateTimes, mapTimes_mapTimes, mapTimes_eq_self_iff]
  exact forall₂_congr fun _ _ => DateTime.toDateTime_settle_iff

/-- **An object reads back** exactly if its metadata do and each of its times does. -/
theorem decode_encode_iff {r : Resource k DateTime} :
    (decode k r.encode).map withDateTimes = .ok r ↔
      r.metadata.Readable ∧ ∀ t ∈ r.times, t.Regular := by
  constructor
  · intro h
    cases hread : decode k r.encode with
    | error e =>
      rw [hread] at h
      cases h
    | ok r' =>
      have hsame : r'.withDateTimes = r := by
        rw [hread] at h
        exact Except.ok.inj h
      have hreadable : r.metadata.Readable := by
        rw [← hsame]
        exact readable_of_decode hread
      have hsettled : r' = r.mapTimes DateTime.settle := by
        rw [decode_encode_settle hreadable] at hread
        exact (Except.ok.inj hread).symm
      exact ⟨hreadable, withDateTimes_settle_iff.mp (hsettled ▸ hsame)⟩
  · rintro ⟨hreadable, hregular⟩
    rw [decode_encode_settle hreadable]
    exact congrArg Except.ok (withDateTimes_settle_iff.mpr hregular)

/-- **Objects can be written and read:** those with metadata that can be written and with regular times
read back, and no others, and whatever was read reads back. -/
theorem round_trip (k : Kind) :
    (∀ r : Resource k DateTime, (decode k r.encode).map withDateTimes = .ok r ↔
        r.metadata.Readable ∧ ∀ t ∈ r.times, t.Regular) ∧
      ∀ (j : Json) (r : Resource k), decode k j = .ok r → decode k r.encode = .ok r :=
  ⟨fun _ => decode_encode_iff, fun _ _ h => decode_encode (readable_of_decode h)⟩

end Resource

/-! ## A leap second within a minute -/

namespace Permission

/-- A permission that was created half a second into a leap second after 00:00:05. -/
def leaping : Resource .permission DateTime where
  metadata := .empty
  spec := ⟨"reader", "ec2:Subnet", "\x7b\x7d", []⟩
  status := some
    { identity := none
      conditions := ⟨none, none, none⟩
      creationTime := some ⟨5, 1500000000, by decide, by decide⟩
      lastUpdatedTime := none
      featureSet := none
      state := none
      facts := Kind.permission.noFacts }

/-- **It is read as another one,** which was created half a second after 00:00:06. -/
theorem leaping_settles :
    leaping.metadata.Readable ∧ ∃ r, Resource.decode .permission leaping.encode = .ok r ∧
      r.times.map (fun t => (t.seconds, t.nanos)) = [(6, 500000000)] ∧ r.withDateTimes ≠ leaping := by
  have hreadable : leaping.metadata.Readable := Metadata.readable_iff.mpr ⟨.object [], rfl⟩
  refine ⟨hreadable, _, Resource.decode_encode_settle hreadable, by decide, fun h => ?_⟩
  have hregular : ∀ t ∈ leaping.times, t.Regular := Resource.withDateTimes_settle_iff.mp h
  exact absurd (hregular ⟨5, 1500000000, by decide, by decide⟩ (.head _)) (by decide)

end Permission

/-! ## A share that was found -/

namespace Share

/-- A condition that the specification is out of reach. -/
def terminalJson (since status : String) : Json :=
  .object [("type", .string "Terminal"), ("status", .string status),
    ("lastTransitionTime", .string since), ("message", .null)]

/-- A share with two conditions of one type, a leap second, a year of five digits, and nulls. -/
def foundJson : Json :=
  .object
    [("spec", .object [("name", .string "team"), ("sources", .array [.string "a"])]),
     ("metadata", .object [("name", .string "team"), ("generation", ofInt 2), ("uid", .null)]),
     ("status", .object
       [("conditions", .array [terminalJson "2016-12-31T23:59:60.5Z" "False",
          terminalJson "+12024-02-29T00:00:00Z" "True"]),
        ("creationTime", .string "2016-12-31T23:59:60.25Z"),
        ("statusMessage", .null)])]

theorem round_trip_found :
    ∃ r, Resource.decode .share foundJson = .ok r ∧ r.conditions.map Conditions.size = some 1 ∧
      Resource.decode .share r.encode = .ok r := by
  have hsize : ((Resource.decode .share foundJson).toOption.bind fun r =>
      r.conditions.map Conditions.size) = some 1 := by decide +kernel
  cases hread : Resource.decode .share foundJson with
  | error e =>
    rw [hread] at hsize
    cases hsize
  | ok r =>
    rw [hread] at hsize
    exact ⟨r, rfl, hsize, (Resource.round_trip .share).2 _ r hread⟩

end Share

end ShareKeeper
