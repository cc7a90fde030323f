import ClusterBackup.Proofs.Calendar.Days
import ClusterBackup.Proofs.Calendar.IsoReading
/-!
# The text of an instant

A timestamp with an offset is put into UTC and written to the second. In the years of four digits
the text tells the second, and nothing else: it is read as that second, timestamps of one second
have one text, and later seconds have later texts (`utc_text_is_canonical`).
-/

namespace ClusterBackup

open Calendar Text

/-! ## Times of day -/

namespace TimeOfDay

def seconds (t : TimeOfDay) : Nat := (t.hour * 60 + t.minute) * 60 + t.second

theorem micros_eq (t : TimeOfDay) : t.micros = t.seconds * 1000000 + t.microsecond := rfl

theorem seconds_lt (t : TimeOfDay) : t.seconds < 86400 := by
  have hhour := t.hour_lt
  have hminute := t.minute_lt
  have hsecond := t.second_lt
  unfold seconds
  omega

theorem micros_lt (t : TimeOfDay) : t.micros < dayMicros := by
  have hseconds := t.seconds_lt
  have hmicros := t.microsecond_lt
  rw [micros_eq, dayMicros]
  omega

theorem micros_ofMicros {n : Nat} (h : n < dayMicros) : (ofMicros n).micros = n := by
  rw [dayMicros] at h
  simp only [micros, ofMicros]
  omega

theorem micros_inj {t t' : TimeOfDay} : t.micros = t'.micros ↔ t = t' := by
  constructor
  · intro h
    rw [← t.ofMicros_micros, h, t'.ofMicros_micros]
  · rintro rfl
    rfl

theorem micros_cut (t : TimeOfDay) : t.cut.micros = t.seconds * 1000000 := by
  simp only [micros, cut, seconds, Nat.add_zero]

end TimeOfDay

/-! ## The order of texts -/

namespace Text

theorem lt_append_of_lt {a b : List Char} (hlength : a.length = b.length) (h : a < b)
    (c d : List Char) : a ++ c < b ++ d := by
  induction a generalizing b with
  | nil =>
    rw [List.length_nil] at hlength
    rw [List.length_eq_zero_iff.1 hlength.symm] at h
    exact absurd h (List.not_lt_nil _)
  | cons x a ih =>
    obtain ⟨y, b, rfl⟩ := List.exists_cons_of_length_eq_add_one hlength.symm
    rw [List.cons_lt_cons_iff] at h
    rw [List.cons_append, List.cons_append, List.cons_lt_cons_iff]
    apply h.imp_right
    rintro ⟨rfl, hlt⟩
    exact ⟨rfl, ih (Nat.succ.inj hlength) hlt⟩

theorem digitChar_lt {m n : Nat} (h : m < n) (hn : n < 10) : digitChar m < digitChar n := by
  have hvalue : (digitChar m).toNat < (digitChar n).toNat := by
    rw [toNat_digitChar (by omega), toNat_digitChar hn]
    omega
  exact hvalue

theorem inPlaces_lt {places m n : Nat} (h : m < n) (hn : n < 10 ^ places) :
    inPlaces 10 places m < inPlaces 10 places n := by
  induction places generalizing m n with
  | zero => omega
  | succ places ih =>
    rw [inPlaces, inPlaces]
    -- The last digit only counts where the digits before it are the same.
    rcases Nat.lt_or_eq_of_le (Nat.div_le_div_right (c := 10) h.le) with hfront | hfront
    · apply lt_append_of_lt (by rw [length_inPlaces, length_inPlaces])
      exact ih hfront (by omega)
    · rw [hfront]
      apply List.append_left_lt
      rw [List.cons_lt_cons_iff]
      exact .inl (digitChar_lt (by omega) (Nat.mod_lt n (by decide)))

end Text

/-! ## Instants -/

namespace Timestamp

/-- The start of a year in UTC, in microseconds from the start of day 0. -/
def startOfYear (year : Nat) : Nat := (daysBeforeYear year + 1) * dayMicros

/-- In UTC the instant lies in one of the years from the first to the last. -/
def LiesIn (t : Timestamp) (first last : Nat) : Prop :=
  startOfYear first ≤ t.instant ∧ t.instant < startOfYear (last + 1)

def epochSecond (t : Timestamp) : Int := t.instant / 1000000

/-- The timestamp in UTC of an instant. -/
structure IsUtc (t : Timestamp) (instant : Int) : Prop where
  offset : t.offset = some .utc
  instant : t.instant = instant

variable {t u v : Timestamp} {n : Int}

instance (first last : Nat) : Decidable (t.LiesIn first last) :=
  inferInstanceAs (Decidable (_ ∧ _))

theorem instant_of_utc (h : t.offset = some .utc) : t.instant = t.wallMicros := by
  unfold instant
  rw [h]
  exact Int.sub_zero _

theorem epochSecond_of_utc (h : t.offset = some .utc) :
    t.epochSecond = t.date.dayNumber * 86400 + t.time.seconds := by
  have hmicros := t.time.microsecond_lt
  rw [epochSecond, instant_of_utc h, wallMicros, t.time.micros_eq, dayMicros]
  omega

theorem IsUtc.unique (hu : u.IsUtc n) (hv : v.IsUtc n) : u = v := by
  have hwall : u.wallMicros = v.wallMicros := by
    apply Int.ofNat.inj
    calc (u.wallMicros : Int) = n := by rw [← instant_of_utc hu.offset, hu.instant]
      _ = v.wallMicros := by rw [← instant_of_utc hv.offset, hv.instant]
  have hut := u.time.micros_lt
  have hvt := v.time.micros_lt
  simp only [wallMicros, dayMicros] at hwall hut hvt
  apply Timestamp.ext
  · apply Date.dayNumber_inj.1
    omega
  · apply TimeOfDay.micros_inj.1
    omega
  · rw [hu.offset, hv.offset]

/-- An instant in the years of the calendar has a timestamp in UTC, and that lies in these years. -/
theorem exists_ofInstant {first last : Nat} (hlast : last ≤ 9999)
    (hn : startOfYear first ≤ n) (hlt : n < startOfYear (last + 1)) :
    ∃ u, ofInstant? n = some u ∧ u.IsUtc n ∧ first ≤ u.date.year := by
  have hend : daysBeforeYear (last + 1) ≤ daysBeforeYear 10000 :=
    daysBeforeYear_mono (by omega) (by omega)
  obtain ⟨m, rfl⟩ := Int.eq_ofNat_of_zero_le (show 0 ≤ n by omega)
  have hsplit := Nat.div_add_mod' m dayMicros
  have hrest := Nat.mod_lt m (show 0 < dayMicros by decide)
  simp only [startOfYear, dayMicros] at hn hlt hsplit hrest
  have hday : daysBeforeYear first + 1 ≤ m / dayMicros := by
    rw [dayMicros]
    omega
  have hdayLe : m / dayMicros ≤ daysBeforeYear 10000 := by
    rw [dayMicros]
    omega
  obtain ⟨d, hd, hnumber⟩ := Date.exists_ofDayNumber (by omega) hdayLe
  refine ⟨⟨d, .ofMicros (m % dayMicros), some .utc⟩, ?_, ⟨rfl, ?_⟩, ?_⟩
  · unfold ofInstant?
    rw [if_neg (by omega), Int.toNat_natCast, hd]
  · rw [instant_of_utc rfl, wallMicros, hnumber,
      TimeOfDay.micros_ofMicros (Nat.mod_lt m (by decide)), Nat.div_add_mod']
  · show first ≤ d.year
    by_contra hyear
    have hbefore := daysBeforeYear_add_le d.year_pos (show d.year < first by omega)
    have hlast := d.day_le_daysInYear
    unfold Date.dayNumber at hnumber
    omega

theorem exists_toUtc {o : Offset} (ho : t.offset = some o) (h : t.LiesIn 1000 9999) :
    ∃ u, t.toUtc? = some u ∧ u.IsUtc t.instant ∧ 1000 ≤ u.date.year := by
  obtain ⟨u, hu, hutc, hyear⟩ := exists_ofInstant (by decide) h.1 h.2
  refine ⟨u, ?_, hutc, hyear⟩
  unfold toUtc?
  rw [ho, hu]

/-! ## Texts in the order of seconds -/

/-- Three numbers with separators come in the order of the numbers, the first one counting most. -/
theorem separated_lt {sep : Char} {places a b c a' b' c' : Nat} (ha : a' < 10 ^ places)
    (hb : b' < 100) (hc : c' < 100) (h : a < a' ∨ a = a' ∧ (b < b' ∨ b = b' ∧ c < c')) :
    separated sep places a b c < separated sep places a' b' c' := by
  unfold separated
  rcases h with hlt | ⟨rfl, hlt | ⟨rfl, hlt⟩⟩
  · exact lt_append_of_lt (by simp) (inPlaces_lt hlt ha) _ _
  · apply List.append_left_lt
    apply List.cons_lt_cons_self.2
    exact lt_append_of_lt (by simp) (inPlaces_lt hlt hb) _ _
  · apply List.append_left_lt
    apply List.cons_lt_cons_self.2
    apply List.append_left_lt
    apply List.cons_lt_cons_self.2
    exact inPlaces_lt hlt hc

theorem dateText_lt {d e : Date} (h : d.Before e) : dateText d < dateText e := by
  have hyear := e.year_le
  have hmonth := e.month_le
  rw [dateText_eq, dateText_eq]
  exact separated_lt (by omega) (by omega) e.day_lt h

theorem clockText_lt {a b : TimeOfDay} (h : a.seconds < b.seconds) :
    clockText a.hour a.minute a.second < clockText b.hour b.minute b.second := by
  have ha := And.intro a.minute_lt a.second_lt
  have hb := And.intro b.minute_lt b.second_lt
  have hhour := b.hour_lt
  unfold TimeOfDay.seconds at h
  rw [clockText_eq, clockText_eq]
  exact separated_lt (by omega) (by omega) (by omega) (by omega)

theorem zuluText_lt (hu : u.offset = some .utc) (hv : v.offset = some .utc)
    (hyear : 1000 ≤ u.date.year) (hyear' : 1000 ≤ v.date.year) (h : u.epochSecond < v.epochSecond) :
    u.zuluText < v.zuluText := by
  have hus := u.time.seconds_lt
  have hvs := v.time.seconds_lt
  rw [epochSecond_of_utc hu, epochSecond_of_utc hv] at h
  rw [String.lt_iff, toList_zuluText hyear, toList_zuluText hyear', List.append_assoc,
    List.append_assoc]
  -- A later day has the later text whatever the clock shows.
  by_cases hday : u.date.dayNumber < v.date.dayNumber
  · apply lt_append_of_lt (by rw [length_dateText, length_dateText])
    exact dateText_lt (Date.before_of_dayNumber_lt hday)
  · obtain hdate : u.date = v.date := Date.dayNumber_inj.1 (by omega)
    rw [hdate] at h ⊢
    apply List.append_left_lt
    rw [List.cons_append, List.cons_append]
    apply List.cons_lt_cons_self.2
    apply lt_append_of_lt
    · rw [clockText_eq, clockText_eq, length_separated, length_separated]
    · exact clockText_lt (by omega)

theorem isUtc_cut (h : u.IsUtc n) :
    IsUtc ⟨u.date, u.time.cut, some .utc⟩ (u.epochSecond * 1000000) where
  offset := rfl
  instant := by
    rw [instant_of_utc rfl, epochSecond_of_utc h.offset]
    show ((u.date.dayNumber * dayMicros + u.time.cut.micros : Nat) : Int) = _
    rw [TimeOfDay.micros_cut, dayMicros]
    omega

theorem zuluText_congr {m : Int} (hu : u.IsUtc n) (hv : v.IsUtc m)
    (h : u.epochSecond = v.epochSecond) : u.zuluText = v.zuluText := by
  have hcut := isUtc_cut hu
  rw [h] at hcut
  calc u.zuluText = zuluText ⟨u.date, u.time.cut, some .utc⟩ := rfl
    _ = zuluText ⟨v.date, v.time.cut, some .utc⟩ := by rw [hcut.unique (isUtc_cut hv)]
    _ = v.zuluText := rfl

/-! ## Canonical texts -/

/-- The texts of two timestamps with offsets, whose instants lie in the years 1000 to 9999 of UTC.
Each text is read as the instant of its timestamp, in UTC, with the fraction of its second cut off.
The texts are the same exactly if the two instants lie in one second, and they come in the order of
these seconds. -/
theorem utc_text_is_canonical {t t' : Timestamp} {o o' : Offset} (ho : t.offset = some o)
    (ho' : t'.offset = some o') (h : t.LiesIn 1000 9999) (h' : t'.LiesIn 1000 9999) :
    ∃ text text', t.utcText? = some text ∧ t'.utcText? = some text' ∧
      (∃ u, ofJson (.str text) = .ok u ∧ u.IsUtc (t.epochSecond * 1000000)) ∧
      (text = text' ↔ t.epochSecond = t'.epochSecond) ∧
      (text < text' ↔ t.epochSecond < t'.epochSecond) := by
  obtain ⟨u, hu, hutc, hyear⟩ := exists_toUtc ho h
  obtain ⟨v, hv, hutc', hyear'⟩ := exists_toUtc ho' h'
  have hsecond : u.epochSecond = t.epochSecond := by
    rw [epochSecond, hutc.instant, epochSecond]
  have hsecond' : v.epochSecond = t'.epochSecond := by
    rw [epochSecond, hutc'.instant, epochSecond]
  rw [← hsecond, ← hsecond']
  have hlt := zuluText_lt hutc.offset hutc'.offset hyear hyear'
  have hgt := zuluText_lt hutc'.offset hutc.offset hyear' hyear
  refine ⟨u.zuluText, v.zuluText, ?_, ?_, ⟨_, ofJson_zuluText hyear, isUtc_cut hutc⟩, ?_, ?_⟩
  · rw [utcText?, hu, Option.map_some]
  · rw [utcText?, hv, Option.map_some]
  · refine ⟨fun heq => ?_, zuluText_congr hutc hutc'⟩
    rw [heq] at hlt hgt
    rcases Int.lt_trichotomy u.epochSecond v.epochSecond with hbefore | hsame | hafter
    · exact absurd (hlt hbefore) (String.lt_irrefl _)
    · exact hsame
    · exact absurd (hgt hafter) (String.lt_irrefl _)
  · refine ⟨fun hbefore => ?_, hlt⟩
    rcases Int.lt_trichotomy u.epochSecond v.epochSecond with hearlier | hsame | hafter
    · exact hearlier
    · rw [zuluText_congr hutc hutc' hsame] at hbefore
      exact absurd hbefore (String.lt_irrefl _)
    · exact absurd hbefore (String.lt_asymm (hgt hafter))

/-- The text is read as a timestamp with an offset in the years that have canonical texts. -/
def hasCanonicalText (text : String) : Bool :=
  (ofJson (.str text)).toOption.any fun t => t.offset.isSome && decide (t.LiesIn 1000 9999)

theorem exists_of_hasCanonicalText {text : String} (h : hasCanonicalText text = true) :
    ∃ t o, ofJson (.str text) = .ok t ∧ t.offset = some o ∧ t.LiesIn 1000 9999 := by
  unfold hasCanonicalText at h
  cases hread : ofJson (.str text) with
  | error e =>
    rw [hread] at h
    cases h
  | ok t =>
    rw [hread] at h
    obtain ⟨hoffset, hlies⟩ := Bool.and_eq_true_iff.1 h
    obtain ⟨o, ho⟩ := Option.isSome_iff_exists.1 hoffset
    exact ⟨t, o, rfl, ho, of_decide_eq_true hlies⟩

example : (ofJson (.str "2024-03-01T00:30:59.999999+01:00")).toOption.bind utcText? =
    some "2024-02-29T23:30:59Z" := by
  decide +kernel

/-- Half past midnight on the first of March, an hour east, is on the leap day before in UTC; half
an hour and a minute after six on the leap day, five hours west, is the next second. -/
theorem leap_day_texts_are_canonical : ∃ t t' : Timestamp,
    ofJson (.str "2024-03-01T00:30:59.999999+01:00") = .ok t ∧
      ofJson (.str "2024-02-29T18:31:00-05:00") = .ok t' ∧
      (t.LiesIn 1000 9999 ∧ t'.LiesIn 1000 9999) ∧
      ∃ text text', t.utcText? = some text ∧ t'.utcText? = some text' ∧
        (∃ u, ofJson (.str text) = .ok u ∧ u.IsUtc (t.epochSecond * 1000000)) ∧
        (text = text' ↔ t.epochSecond = t'.epochSecond) ∧
        (text < text' ↔ t.epochSecond < t'.epochSecond) := by
  have hread : hasCanonicalText "2024-03-01T00:30:59.999999+01:00" = true := by decide +kernel
  have hread' : hasCanonicalText "2024-02-29T18:31:00-05:00" = true := by decide +kernel
  obtain ⟨t, o, ht, ho, h⟩ := exists_of_hasCanonicalText hread
  obtain ⟨t', o', ht', ho', h'⟩ := exists_of_hasCanonicalText hread'
  exact ⟨t, t', ht, ht', ⟨h, h'⟩, utc_text_is_canonical ho ho' h h'⟩

end Timestamp

end ClusterBackup
