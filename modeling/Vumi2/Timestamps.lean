import Vumi2.Lib.TimeFormat
import Vumi2.Runtime

/-!
# Timestamps on the wire

The hooks by which `messages.py` serialises a timestamp: the text of a `datetime` in the vumi
format, and the `datetime` of such a text. A text may have a `Z` behind it, and may lack the
fraction. `deserialise_serialise` is the round trip, from the year 1000 on.

Other systems write the same instant with fewer digits, without the fraction or with a `Z`.
`Spelling` is all of these texts, and `deserialise_spelling` says that they are read alike. The two
tests by position do not meet: the `Z` is gone before the last ten characters are looked at, a
fraction with its point is no longer than seven of them, and before the fraction there is no point.
-/

namespace Vumi2

open Text Calendar TimeFormat

/-- `VUMI_DATE_FORMAT`: `%Y-%m-%d %H:%M:%S.%f`. -/
def vumiDateFormat : List Directive :=
  [.year, .literal (ofChar '-'), .month, .literal (ofChar '-'), .day, .space, .hour,
    .literal (ofChar ':'), .minute, .literal (ofChar ':'), .second, .literal (ofChar '.'), .micro]

/-- The broken-down time of a `datetime`. -/
def DateTime.fields (d : DateTime) : Fields where
  date := toDate (d.micros / 86400000000)
  hour := d.micros % 86400000000 / 3600000000
  minute := d.micros % 3600000000 / 60000000
  second := d.micros % 60000000 / 1000000
  micro := d.micros % 1000000

/-- The `datetime` of a broken-down time. -/
def DateTime.ofFields (t : Fields) : Option DateTime :=
  let micros := ofDate t.date * 86400000000 + t.hour * 3600000000 + t.minute * 60000000 +
    t.second * 1000000 + t.micro
  if h : micros < maxMicros then some ⟨micros, h⟩ else none

/-- `serialise_vumi_timestamp`. -/
def serialiseVumiTimestamp (value : DateTime) : Str := strftime vumiDateFormat value.fields

/-- `deserialise_vumi_timestamp`. -/
def deserialiseVumiTimestamp (value : Str) : Except PyExc DateTime :=
  let value := if value.getLast? = some (ofChar 'Z') then value.dropLast else value
  let value :=
    if (value.drop (value.length - 10)).any (fun c => c = ofChar '.') = true then value
    else value ++ str ".0"
  match (strptime vumiDateFormat value).bind DateTime.ofFields with
  | some d => .ok d
  | none => .error .valueError

/-- Two times of the same microsecond are one time. -/
theorem DateTime.ext_micros {a b : DateTime} (h : a.micros = b.micros) : a = b := by
  cases a
  cases b
  cases h
  rfl

/-- A time is read back from its fields. -/
theorem DateTime.ofFields_fields (d : DateTime) : ofFields d.fields = some d := by
  have hmicros : ofDate d.fields.date * 86400000000 + d.fields.hour * 3600000000 +
      d.fields.minute * 60000000 + d.fields.second * 1000000 + d.fields.micro = d.micros := by
    have hdate : ofDate d.fields.date = d.micros / 86400000000 := ofDate_toDate _
    rw [hdate]
    unfold DateTime.fields
    dsimp only
    omega
  unfold DateTime.ofFields
  dsimp only
  rw [dif_pos (by rw [hmicros]; exact d.valid)]
  exact congrArg some (DateTime.ext_micros hmicros)

/-- The fields of a time are in their ranges. -/
theorem DateTime.isValid_fields (d : DateTime) : d.fields.isValid = true := by
  have hvalid := d.valid
  unfold maxMicros at hvalid
  have hdate : d.fields.date.isValid = true := isValid_toDate _
  have hyear : d.fields.date.year < 10000 := year_lt (by omega)
  have hhour : d.fields.hour < 24 := by unfold DateTime.fields; dsimp only; omega
  have hminute : d.fields.minute < 60 := by unfold DateTime.fields; dsimp only; omega
  have hsecond : d.fields.second < 60 := by unfold DateTime.fields; dsimp only; omega
  have hmicro : d.fields.micro < 1000000 := by unfold DateTime.fields; dsimp only; omega
  unfold Fields.isValid
  simp [hdate, hyear, hhour, hminute, hsecond, hmicro]

/-- The part of the format before the fraction. -/
def secondsFormat : List Directive :=
  [.year, .literal (ofChar '-'), .month, .literal (ofChar '-'), .day, .space, .hour,
    .literal (ofChar ':'), .minute, .literal (ofChar ':'), .second]

/-- What a timestamp is written as: the time to the second, a point and six digits. -/
theorem serialise_eq (d : DateTime) : serialiseVumiTimestamp d =
    strftime secondsFormat d.fields ++ ofChar '.' :: padded 6 d.fields.micro := by
  unfold serialiseVumiTimestamp strftime secondsFormat vumiDateFormat
  simp [Directive.render]

/-- There is no point before the fraction. -/
theorem point_notMem_seconds (t : Fields) : ofChar '.' ∉ strftime secondsFormat t := by
  have hnumber : isDigit (ofChar '.') = true → False := by decide
  intro h
  obtain ⟨directive, hdirective, hpoint⟩ := List.mem_flatMap.1 h
  simp only [secondsFormat, List.mem_cons, List.not_mem_nil, or_false] at hdirective
  rcases hdirective with rfl | rfl | rfl | rfl | rfl | rfl | rfl | rfl | rfl | rfl | rfl
  · exact hnumber (isDigit_of_mem_decimal hpoint)
  · exact absurd (List.mem_singleton.1 hpoint) (by decide)
  · exact hnumber (isDigit_of_mem_padded hpoint)
  · exact absurd (List.mem_singleton.1 hpoint) (by decide)
  · exact hnumber (isDigit_of_mem_padded hpoint)
  · exact absurd (List.mem_singleton.1 hpoint) (by decide)
  · exact hnumber (isDigit_of_mem_padded hpoint)
  · exact absurd (List.mem_singleton.1 hpoint) (by decide)
  · exact hnumber (isDigit_of_mem_padded hpoint)
  · exact absurd (List.mem_singleton.1 hpoint) (by decide)
  · exact hnumber (isDigit_of_mem_padded hpoint)

/-- The one space of the format has a digit behind it. -/
theorem seconds_behind_space (t : Fields) (s : Str) {behind : List Directive}
    (h : (Directive.space :: behind) <:+ secondsFormat) :
    (strftime behind t ++ s).takeWhile anySpace = [] := by
  obtain rfl :
    behind = [.hour, .literal (ofChar ':'), .minute, .literal (ofChar ':'), .second] := by
    simpa [secondsFormat, List.suffix_cons_iff] using h
  have hdigit : ∀ n < 10, anySpace (digit n) = false := by decide
  refine List.takeWhile_cons_of_neg ?_
  rw [hdigit _ (Nat.mod_lt _ (by omega))]
  simp

/-- A fraction is matched to its end. -/
theorem matchFormat_fraction {t : Fields} (h : Writable t) {fraction : Str}
    (hdigits : ∀ c ∈ fraction, isDigit c = true) (hpos : 1 ≤ fraction.length)
    (hle : fraction.length ≤ 6) :
    matchFormat [.literal (ofChar '.'), .micro] (ofChar '.' :: fraction) =
      some ([[ofChar '.'], fraction], []) := by
  have hhead : (Directive.micro.lengths (fraction ++ [])).head? = some fraction.length := by
    rw [List.append_nil]
    exact head_lengths_micro hdigits hpos hle
  have hend : matchFormat [.micro] (fraction ++ []) = some ([fraction], []) :=
    matchFormat_cons hhead rfl
  rw [List.append_nil] at hend
  have hpoint := head_lengths_render h (.literal (ofChar '.')) (s := fraction) nofun
  exact matchFormat_cons hpoint hend

/-- The fields of a time that is written to the second, and a fraction. -/
theorem fieldsOf_seconds {t : Fields} (h : Writable t) {fraction : Str}
    (hmicro : number fraction * 10 ^ (6 - fraction.length) = t.micro) :
    fieldsOf vumiDateFormat
      (secondsFormat.map (Directive.render t) ++ [[ofChar '.'], fraction]) = t := by
  obtain ⟨hyear, hmonth, hday, hhour, hminute, hsecond, -⟩ := number_render h
  unfold fieldsOf
  simp only [vumiDateFormat, secondsFormat, List.map_cons, List.map_nil, List.cons_append,
    List.nil_append, List.zip_cons_cons, List.zip_nil_right, List.foldl_cons, List.foldl_nil,
    Directive.apply, hyear, hmonth, hday, hhour, hminute, hsecond, hmicro]

/-- A time is read back from its text to the second, and any fraction that is worth its
microseconds. -/
theorem strptime_fraction {t : Fields} (h : Writable t) {fraction : Str}
    (hdigits : ∀ c ∈ fraction, isDigit c = true) (hpos : 1 ≤ fraction.length)
    (hle : fraction.length ≤ 6) (hmicro : natOf fraction * 10 ^ (6 - fraction.length) = t.micro) :
    strptime vumiDateFormat (strftime secondsFormat t ++ ofChar '.' :: fraction) = some t := by
  have hformat : vumiDateFormat = secondsFormat ++ [.literal (ofChar '.'), .micro] := rfl
  have hmatch : matchFormat vumiDateFormat (strftime secondsFormat t ++ ofChar '.' :: fraction) =
      some (secondsFormat.map (Directive.render t) ++ [[ofChar '.'], fraction], []) := by
    rw [hformat]
    exact matchFormat_strftime_append h (matchFormat_fraction h hdigits hpos hle)
      fun _ hbehind => seconds_behind_space t _ hbehind
  have hfields : fieldsOf vumiDateFormat
      (secondsFormat.map (Directive.render t) ++ [[ofChar '.'], fraction]) = t := by
    apply fieldsOf_seconds h
    rw [number_eq_natOf hdigits, hmicro]
  unfold strptime
  rw [hmatch]
  dsimp only
  rw [hfields, if_pos h.valid]

/-! ## Spellings -/

/-- What is written for a timestamp without a `Z`: the text that it is serialised as, which may lack
zeros at the end of the fraction but for its first digit, or a fraction of zeros and its point. -/
inductive Unzoned (d : DateTime) (text : Str) : Prop
  | fraction (zeros : ℕ) (hdigit : zeros < 6)
      (h : serialiseVumiTimestamp d = text ++ List.replicate zeros (ofChar '0'))
  | whole (h : serialiseVumiTimestamp d = text ++ str ".000000")

/-- A spelling of a timestamp, with or without a `Z`. -/
inductive Spelling (d : DateTime) : Str → Prop
  | plain {text : Str} (h : Unzoned d text) : Spelling d text
  | zoned {text : Str} (h : Unzoned d text) : Spelling d (text ++ [ofChar 'Z'])

/-- A text that ends in a numeral does not end in a `Z`. -/
theorem getLast?_ne_zone (text : Str) (width n : ℕ) :
    (text ++ padded (width + 1) n).getLast? ≠ some (ofChar 'Z') := by
  have hdigit : ∀ n < 10, digit n ≠ ofChar 'Z' := by decide
  rw [padded, ← List.append_assoc, List.getLast?_concat]
  intro h
  exact hdigit (n % 10) (Nat.mod_lt _ (by omega)) (Option.some.inj h)

/-- A time to the second ends with a digit, not with a zone. -/
theorem seconds_getLast?_ne (t : Fields) :
    (strftime secondsFormat t).getLast? ≠ some (ofChar 'Z') := by
  have hsplit : strftime secondsFormat t =
      strftime secondsFormat.dropLast t ++ padded (1 + 1) t.second := by
    rw [show secondsFormat = secondsFormat.dropLast ++ [.second] from rfl]
    unfold strftime
    rw [List.flatMap_append]
    simp [Directive.render]
  rw [hsplit]
  exact getLast?_ne_zone _ 1 t.second

/-- A time with a fraction ends with a digit, not with a zone. -/
theorem fraction_getLast?_ne (t : Fields) (width n : ℕ) :
    (strftime secondsFormat t ++ ofChar '.' :: padded (width + 1) n).getLast? ≠
      some (ofChar 'Z') := by
  rw [List.append_cons]
  exact getLast?_ne_zone _ width n

/-- A `Z` is not read. -/
theorem deserialise_zoned {text : Str} (h : text.getLast? ≠ some (ofChar 'Z')) :
    deserialiseVumiTimestamp (text ++ [ofChar 'Z']) = deserialiseVumiTimestamp text := by
  unfold deserialiseVumiTimestamp
  rw [if_pos List.getLast?_concat, if_neg h, List.dropLast_concat]

/-- A timestamp comes back from its text to the second and a fraction that is worth its
microseconds. -/
theorem deserialise_fraction {d : DateTime} (hyear : 1000 ≤ d.fields.date.year) {width n : ℕ}
    (hwidth : width < 6) (hmicro : n % 10 ^ (width + 1) * 10 ^ (6 - (width + 1)) = d.fields.micro) :
    deserialiseVumiTimestamp
        (strftime secondsFormat d.fields ++ ofChar '.' :: padded (width + 1) n) =
      .ok d := by
  have hlen : (padded (width + 1) n).length = width + 1 := padded_length _ _
  have hlast := fraction_getLast?_ne d.fields width n
  -- The point is among the last ten characters, for at most six stand behind it.
  have hpoint : ((strftime secondsFormat d.fields ++ ofChar '.' :: padded (width + 1) n).drop
      ((strftime secondsFormat d.fields ++ ofChar '.' :: padded (width + 1) n).length - 10)).any
        (fun c => c = ofChar '.') = true := by
    have htail : (ofChar '.' :: padded (width + 1) n).length = width + 2 := by
      rw [List.length_cons, hlen]
    have hdrop : (strftime secondsFormat d.fields).length + (width + 2) - 10 -
        (strftime secondsFormat d.fields).length = 0 := by omega
    rw [List.length_append, htail, List.drop_append, hdrop, List.any_append]
    simp
  have hread : strptime vumiDateFormat
      (strftime secondsFormat d.fields ++ ofChar '.' :: padded (width + 1) n) = some d.fields := by
    refine strptime_fraction ⟨d.isValid_fields, hyear⟩ (fun c hc => isDigit_of_mem_padded hc)
      (by omega) (by omega) ?_
    rw [natOf_padded_mod, hlen, hmicro]
  unfold deserialiseVumiTimestamp
  dsimp only
  rw [if_neg hlast, if_pos hpoint, hread, Option.bind_some, DateTime.ofFields_fields]

/-- A timestamp of no microseconds comes back from its text to the second. -/
theorem deserialise_whole {d : DateTime} (hyear : 1000 ≤ d.fields.date.year)
    (hmicro : d.fields.micro = 0) :
    deserialiseVumiTimestamp (strftime secondsFormat d.fields) = .ok d := by
  have hlast := seconds_getLast?_ne d.fields
  -- There is no point in the last ten characters, so `.0` is appended.
  have hpoint : ¬((strftime secondsFormat d.fields).drop
      ((strftime secondsFormat d.fields).length - 10)).any (fun c => c = ofChar '.') = true := by
    intro hany
    obtain ⟨c, hc, hpoint⟩ := List.any_eq_true.1 hany
    have hmem := List.mem_of_mem_drop hc
    rw [of_decide_eq_true hpoint] at hmem
    exact point_notMem_seconds d.fields hmem
  have hzero : str ".0" = ofChar '.' :: padded 1 0 := by decide
  -- With the fraction in place the format reads it.
  have hread :
      strptime vumiDateFormat (strftime secondsFormat d.fields ++ ofChar '.' :: padded 1 0) =
      some d.fields := by
    refine strptime_fraction ⟨d.isValid_fields, hyear⟩ (fun c hc => isDigit_of_mem_padded hc)
      (by decide) (by decide) ?_
    rw [hmicro]
    decide
  unfold deserialiseVumiTimestamp
  dsimp only
  rw [if_neg hlast, if_neg hpoint, hzero, hread, Option.bind_some, DateTime.ofFields_fields]

/-- A timestamp comes back from what it is written as. -/
theorem deserialise_serialise {d : DateTime} (hyear : 1000 ≤ d.fields.date.year) :
    deserialiseVumiTimestamp (serialiseVumiTimestamp d) = .ok d := by
  have hlt : d.fields.micro < 10 ^ 6 := Nat.mod_lt _ (by omega)
  rw [serialise_eq]
  refine deserialise_fraction hyear (by omega) ?_
  rw [Nat.mod_eq_of_lt hlt, Nat.sub_self, Nat.pow_zero, Nat.mul_one]

/-- What stands before the zeros that may be left out. -/
theorem Unzoned.fraction_eq {d : DateTime} {text : Str} {zeros : ℕ} (hdigit : zeros < 6)
    (h : serialiseVumiTimestamp d = text ++ List.replicate zeros (ofChar '0')) :
    text = strftime secondsFormat d.fields ++
        ofChar '.' :: padded (5 - zeros + 1) (d.fields.micro / 10 ^ zeros) ∧
      d.fields.micro % 10 ^ zeros = 0 := by
  have hwidth : 6 = (5 - zeros + 1) + zeros := by omega
  have hsplit : serialiseVumiTimestamp d = (strftime secondsFormat d.fields ++
      ofChar '.' :: padded (5 - zeros + 1) (d.fields.micro / 10 ^ zeros)) ++
        padded zeros d.fields.micro := by
    have hdigits : padded 6 d.fields.micro =
        padded (5 - zeros + 1) (d.fields.micro / 10 ^ zeros) ++ padded zeros d.fields.micro := by
      rw [← padded_add, ← hwidth]
    rw [serialise_eq, hdigits, List.append_assoc, List.cons_append]
  have hlen :
      (List.replicate zeros (ofChar '0')).length = (padded zeros d.fields.micro).length := by
    rw [List.length_replicate, padded_length]
  obtain ⟨htext, hzeros⟩ := List.append_inj' (h.symm.trans hsplit) hlen
  exact ⟨htext, mod_of_padded_eq_zeros hzeros.symm⟩

/-- What stands before a fraction of zeros. -/
theorem Unzoned.whole_eq {d : DateTime} {text : Str}
    (h : serialiseVumiTimestamp d = text ++ str ".000000") :
    text = strftime secondsFormat d.fields ∧ d.fields.micro = 0 := by
  have hpoint : str ".000000" = ofChar '.' :: List.replicate 6 (ofChar '0') := by decide
  have hlt : d.fields.micro < 10 ^ 6 := Nat.mod_lt _ (by omega)
  have hlen : (ofChar '.' :: List.replicate 6 (ofChar '0')).length =
      (ofChar '.' :: padded 6 d.fields.micro).length := by
    rw [List.length_cons, List.length_cons, List.length_replicate, padded_length]
  rw [serialise_eq, hpoint] at h
  obtain ⟨htext, hfraction⟩ := List.append_inj' h.symm hlen
  have hmod := mod_of_padded_eq_zeros (List.cons.inj hfraction).2.symm
  exact ⟨htext, by omega⟩

/-- A spelling ends in a digit, but for the `Z`. -/
theorem Unzoned.getLast?_ne {d : DateTime} {text : Str} (h : Unzoned d text) :
    text.getLast? ≠ some (ofChar 'Z') := by
  cases h with
  | fraction zeros hdigit h =>
    rw [(fraction_eq hdigit h).1]
    exact fraction_getLast?_ne d.fields _ _
  | whole h =>
    rw [(whole_eq h).1]
    exact seconds_getLast?_ne d.fields

/-- A time written without a zone is read as that time of UTC. -/
theorem Unzoned.deserialise {d : DateTime} {text : Str} (hyear : 1000 ≤ d.fields.date.year)
    (h : Unzoned d text) : deserialiseVumiTimestamp text = .ok d := by
  cases h with
  | fraction zeros hdigit h =>
    obtain ⟨htext, hzeros⟩ := fraction_eq hdigit h
    have hlt : d.fields.micro / 10 ^ zeros < 10 ^ (5 - zeros + 1) := by
      have hpow : 10 ^ (5 - zeros + 1) * 10 ^ zeros = 1000000 := by
        rw [← Nat.pow_add, show 5 - zeros + 1 + zeros = 6 by omega]
      have hmicro : d.fields.micro < 1000000 := Nat.mod_lt _ (by omega)
      exact (Nat.div_lt_iff_lt_mul (Nat.pow_pos (by omega))).2 (hpow ▸ hmicro)
    rw [htext]
    refine deserialise_fraction hyear (by omega) ?_
    calc d.fields.micro / 10 ^ zeros % 10 ^ (5 - zeros + 1) * 10 ^ (6 - (5 - zeros + 1))
        = d.fields.micro / 10 ^ zeros * 10 ^ zeros := by
          rw [Nat.mod_eq_of_lt hlt, show 6 - (5 - zeros + 1) = zeros by omega]
      _ = d.fields.micro := Nat.div_mul_cancel (Nat.dvd_of_mod_eq_zero hzeros)
  | whole h =>
    obtain ⟨htext, hmicro⟩ := whole_eq h
    rw [htext]
    exact deserialise_whole hyear hmicro

/-- Every spelling of a timestamp is read as it, from the year 1000 on. -/
theorem deserialise_spelling {d : DateTime} {text : Str} (hyear : 1000 ≤ d.fields.date.year)
    (h : Spelling d text) : deserialiseVumiTimestamp text = .ok d := by
  cases h with
  | plain h => exact h.deserialise hyear
  | zoned h =>
    rw [deserialise_zoned h.getLast?_ne]
    exact h.deserialise hyear

/-- Half a second past noon, with one digit of the fraction and a `Z`. -/
theorem deserialise_spelling_noon : ∃ d : DateTime, d.fields = ⟨⟨2024, 2, 29⟩, 12, 0, 0, 500000⟩ ∧
    deserialiseVumiTimestamp (str "2024-02-29 12:00:00.5Z") = .ok d := by
  have hfields : ∃ d : DateTime, d.fields = ⟨⟨2024, 2, 29⟩, 12, 0, 0, 500000⟩ :=
    ⟨⟨ofDate ⟨2024, 2, 29⟩ * 86400000000 + 43200500000, by decide⟩, by decide⟩
  obtain ⟨d, hd⟩ := hfields
  have hserialised : serialiseVumiTimestamp d =
      str "2024-02-29 12:00:00.5" ++ List.replicate 5 (ofChar '0') := by
    unfold serialiseVumiTimestamp
    rw [hd]
    decide
  exact ⟨d, hd, deserialise_spelling (by rw [hd]; decide)
    (.zoned (.fraction 5 (by decide) hserialised))⟩

end Vumi2
