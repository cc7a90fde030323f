import ClusterBackup.Backup
import ClusterBackup.Proofs.Calendar.Stamps
/-!
# Reading what was written

A date with hyphens, a time of day with colons and an offset are read as they were written, each in
its set number of digits. So the text of a timestamp in UTC is read as its date, its hour, minute
and second, in UTC (`ofJson_zuluText`).
-/

namespace ClusterBackup

namespace Text

/-! ## Digits -/

theorem isDigit_of_mem_inPlaces {c : Char} {places n : Nat} (h : c ∈ inPlaces 10 places n) :
    c.isDigit = true := by
  induction places generalizing n with
  | zero => cases h
  | succ places ih =>
    rw [inPlaces, List.mem_append, List.mem_singleton] at h
    rcases h with hfront | rfl
    · exact ih hfront
    · have hlast := Nat.mod_lt n (show 10 > 0 by decide)
      generalize n % 10 = digit at hlast
      interval_cases digit <;> rfl

theorem all_isDigit_inPlaces (places n : Nat) :
    (inPlaces 10 places n).all Char.isDigit = true := by
  rw [List.all_eq_true]
  exact fun c hc => isDigit_of_mem_inPlaces hc

theorem readPlaces?_inPlaces_append {places n : Nat} (h : n < 10 ^ places) (rest : List Char) :
    readPlaces? places (inPlaces 10 places n ++ rest) = some (n, rest) := by
  have hlength := length_inPlaces 10 places n
  have hfront : (inPlaces 10 places n ++ rest).take places = inPlaces 10 places n :=
    List.take_left' hlength
  have hrest : (inPlaces 10 places n ++ rest).drop places = rest := List.drop_left' hlength
  have hvalue : decimalValue (inPlaces 10 places n) = n := by
    rw [decimalValue_inPlaces, Nat.mod_eq_of_lt h]
  unfold readPlaces?
  dsimp only
  rw [hfront, hrest, hlength, all_isDigit_inPlaces, hvalue]
  simp

theorem readPlaces?_inPlaces {places n : Nat} (h : n < 10 ^ places) :
    readPlaces? places (inPlaces 10 places n) = some (n, []) := by
  simpa using readPlaces?_inPlaces_append h []

end Text

open Text

def TimeOfDay.cut (t : TimeOfDay) : TimeOfDay :=
  { t with microsecond := 0, microsecond_lt := Nat.zero_lt_of_lt t.microsecond_lt }

namespace Timestamp

/-! ## Numbers between separators -/

def separated (sep : Char) (places first second third : Nat) : List Char :=
  inPlaces 10 places first ++ sep :: (inPlaces 10 2 second ++ sep :: inPlaces 10 2 third)

theorem dateText_eq (d : Date) : dateText d = separated '-' 4 d.year d.month d.day := by
  simp [dateText, separated]

theorem clockText_eq (hour minute second : Nat) :
    clockText hour minute second = separated ':' 2 hour minute second := by
  simp [clockText, separated]

theorem length_separated (sep : Char) (places first second third : Nat) :
    (separated sep places first second third).length = places + 6 := by
  simp [separated]

theorem mem_separated {c sep : Char} {places first second third : Nat}
    (h : c ∈ separated sep places first second third) : c.isDigit = true ∨ c = sep := by
  simp only [separated, List.mem_append, List.mem_cons] at h
  rcases h with h | h | h | h | h
  · exact .inl (isDigit_of_mem_inPlaces h)
  · exact .inr h
  · exact .inl (isDigit_of_mem_inPlaces h)
  · exact .inr h
  · exact .inl (isDigit_of_mem_inPlaces h)

theorem not_mem_separated {c sep : Char} {places first second third : Nat}
    (hc : c.isDigit = false) (hsep : c ≠ sep) : c ∉ separated sep places first second third := by
  intro hmem
  rcases mem_separated hmem with hdigit | hsame
  · rw [hc] at hdigit
    cases hdigit
  · exact hsep hsame

/-! ## Dates -/

theorem inPlaces_append_ne_week (places n : Nat) (rest more : List Char) :
    inPlaces 10 (places + 1) n ++ rest ≠ 'W' :: more := by
  intro h
  have hmem : 'W' ∈ inPlaces 10 (places + 1) n := by
    cases hdigits : inPlaces 10 (places + 1) n with
    | nil =>
      have hlength := length_inPlaces 10 (places + 1) n
      rw [hdigits] at hlength
      cases hlength
    | cons c cs =>
      rw [hdigits, List.cons_append] at h
      exact List.mem_cons.2 (.inl (List.cons.inj h).1.symm)
  exact absurd (isDigit_of_mem_inPlaces hmem) (by decide)

theorem length_dateText (d : Date) : (dateText d).length = 10 := by
  rw [dateText_eq, length_separated]

theorem readMonthDay?_hyphens {month day : Nat} (hm : month < 100) (hd : day < 100) :
    readMonthDay? true (inPlaces 10 2 month ++ '-' :: inPlaces 10 2 day) = some (month, day) := by
  unfold readMonthDay?
  rw [readPlaces?_inPlaces_append (show month < 10 ^ 2 from hm)]
  show readMonthDay?.day? month (inPlaces 10 2 day) = _
  unfold readMonthDay?.day?
  rw [readPlaces?_inPlaces (show day < 10 ^ 2 from hd)]

theorem readDate_dateText (d : Date) : readDate (dateText d) = .ok d := by
  have hyear := d.year_le
  have hmonth := d.month_le
  unfold readDate
  rw [dateText_eq, separated,
    readPlaces?_inPlaces_append (show d.year < 10 ^ 4 by omega)]
  dsimp only [List.head?_cons]
  simp only [beq_self_eq_true, if_true, List.drop_succ_cons, List.drop_zero]
  split
  · rename_i hweek
    exact absurd hweek (inPlaces_append_ne_week 1 _ _ _)
  · rw [readMonthDay?_hyphens (by omega) d.day_lt]
    dsimp only
    rw [Date.ofParts_self]
    rfl

theorem dateLength_dateText (d : Date) (rest : List Char) :
    dateLength (dateText d ++ rest) = 10 := by
  have hdrop : (dateText d ++ rest).drop 4 =
      '-' :: (inPlaces 10 2 d.month ++ ('-' :: inPlaces 10 2 d.day ++ rest)) := by
    rw [dateText_eq, separated, List.append_assoc, List.drop_left' (length_inPlaces 10 4 d.year)]
    simp
  unfold dateLength
  rw [hdrop]
  split
  · rename_i hweek
    exact absurd (List.cons.inj hweek).2 (inPlaces_append_ne_week 1 _ _ _)
  · rfl
  · rename_i hweek
    exact absurd (List.cons.inj hweek).1 (by decide)
  · rename_i hhyphen _
    exact absurd rfl (hhyphen _)

/-! ## Times of day -/

/-- What is read of a clock with one more of its fields, counted from the last one. -/
def Reading.store (r : Reading) (field n : Nat) : Reading :=
  match field with
  | 2 => { r with hour := n }
  | 1 => { r with minute := n }
  | _ => { r with second := n }

/-- A field with a colon after it is stored, and the other fields go on behind the colon. -/
theorem readFields?_colon {fields n : Nat} {colons : Option Bool} {r : Reading}
    {rest : List Char} (h : n < 100) (hcolons : colons.getD true = true) (hrest : rest ≠ []) :
    readFields? (fields + 1) colons r (inPlaces 10 2 n ++ ':' :: rest) =
      readFields? fields (some true) (r.store fields n) rest := by
  obtain ⟨c, more, rfl⟩ := List.exists_cons_of_ne_nil hrest
  rw [readFields?, readPlaces?_inPlaces_append (show n < 10 ^ 2 from h)]
  cases colons with
  | none => rfl
  | some b =>
    obtain rfl : b = true := hcolons
    rfl

theorem readFields?_last {fields n : Nat} {colons : Option Bool} {r : Reading} (h : n < 100) :
    readFields? (fields + 1) colons r (inPlaces 10 2 n) = some (r.store fields n) := by
  rw [readFields?, readPlaces?_inPlaces (show n < 10 ^ 2 from h)]
  rfl

theorem readClock?_clockText (t : TimeOfDay) :
    readClock? (clockText t.hour t.minute t.second) =
      some { hour := t.hour, minute := t.minute, second := t.second } := by
  have hhour := t.hour_lt
  have hminute := t.minute_lt
  have hsecond := t.second_lt
  have hlast : inPlaces 10 2 t.second ≠ [] := by simp [inPlaces]
  have hrest : inPlaces 10 2 t.minute ++ ':' :: inPlaces 10 2 t.second ≠ [] := by simp
  unfold readClock?
  rw [clockText_eq, separated, readFields?_colon (by omega) rfl hrest,
    readFields?_colon (by omega) rfl hlast, readFields?_last (by omega)]
  rfl

def utcText : List Char := "+00:00".toList

theorem readOffset_utcText : readOffset utcText = .ok (some .utc) := by
  decide

theorem isSign_of_isDigit {c : Char} (h : c.isDigit = true) : isSign c = false := by
  unfold isSign
  rw [Bool.or_eq_false_iff, beq_eq_false_iff_ne, beq_eq_false_iff_ne]
  constructor
  · rintro rfl
    exact absurd h (by decide)
  · rintro rfl
    exact absurd h (by decide)

theorem readTime_clockText (t : TimeOfDay) :
    readTime (clockText t.hour t.minute t.second ++ utcText) =
      .ok ({ hour := t.hour, minute := t.minute, second := t.second }, some .utc) := by
  have hsigns : ∀ c ∈ clockText t.hour t.minute t.second, (!isSign c) = true := by
    intro c hc
    rw [clockText_eq] at hc
    rcases mem_separated hc with hdigit | rfl
    · rw [isSign_of_isDigit hdigit]
      rfl
    · rfl
  have hclock : (clockText t.hour t.minute t.second ++ utcText).takeWhile (!isSign ·) =
      clockText t.hour t.minute t.second := by
    rw [List.takeWhile_append_of_pos hsigns, show utcText.takeWhile (!isSign ·) = [] from rfl,
      List.append_nil]
  have hzone : (clockText t.hour t.minute t.second ++ utcText).dropWhile (!isSign ·) = utcText := by
    rw [List.dropWhile_append_of_pos hsigns]
    rfl
  unfold readTime
  rw [hclock, hzone, readClock?_clockText]
  dsimp only
  rw [readOffset_utcText, Bool.and_false, if_neg Bool.false_ne_true]
  rfl

/-! ## Timestamps -/

theorem read_utc (d : Date) (t : TimeOfDay) :
    read (dateText d ++ 'T' :: (clockText t.hour t.minute t.second ++ utcText)) =
      .ok ⟨d, t.cut, some .utc⟩ := by
  have htime : TimeOfDay.ofParts t.hour t.minute t.second 0 = .ok t.cut := by
    simp [TimeOfDay.ofParts, TimeOfDay.cut, t.hour_lt, t.minute_lt, t.second_lt]
  unfold read
  dsimp only
  rw [dateLength_dateText, List.drop_left' (length_dateText d),
    List.take_left' (length_dateText d), readDate_dateText]
  dsimp only
  rw [readTime_clockText]
  show (TimeOfDay.ofParts t.hour t.minute t.second 0).mapError TimestampError.time >>= _ = _
  rw [htime]
  rfl

theorem yearText_eq {year : Nat} (h : 1000 ≤ year) (hle : year ≤ 9999) :
    yearText year = inPlaces 10 4 year := by
  have hdigits : inPlaces 10 4 year = digitChar (year / 10 / 10 / 10 % 10) ::
      inPlaces 10 3 year := rfl
  have hfirst : (digitChar (year / 10 / 10 / 10 % 10) == '0') = false := by
    have hpos : 1 ≤ year / 10 / 10 / 10 % 10 := by omega
    have hlt : year / 10 / 10 / 10 % 10 < 10 := by omega
    generalize year / 10 / 10 / 10 % 10 = digit at hpos hlt
    interval_cases digit <;> rfl
  rw [yearText, hdigits, List.dropWhile_cons, hfirst, if_neg Bool.false_ne_true]

theorem zuluAsOffset_concat {cs : List Char} (h : 'Z' ∉ cs) :
    zuluAsOffset (String.ofList (cs ++ ['Z'])) = String.ofList (cs ++ utcText) := by
  have hsame : (cs.flatMap fun c => if c = 'Z' then "+00:00".toList else [c]) = cs := by
    induction cs with
    | nil => rfl
    | cons c cs ih =>
      rw [List.mem_cons, not_or] at h
      rw [List.flatMap_cons, ih h.2, if_neg (Ne.symm h.1)]
      rfl
  have hlist : (String.ofList (cs ++ ['Z'])).toList = cs ++ ['Z'] := String.toList_ofList
  unfold zuluAsOffset
  rw [hlist, List.flatMap_append, hsame]
  rfl

theorem toList_zuluText {t : Timestamp} (h : 1000 ≤ t.date.year) :
    t.zuluText.toList =
      dateText t.date ++ 'T' :: clockText t.time.hour t.time.minute t.time.second ++ ['Z'] := by
  unfold zuluText
  rw [yearText_eq h t.date.year_le, String.toList_ofList]
  simp [dateText]

theorem ofJson_zuluText {t : Timestamp} (h : 1000 ≤ t.date.year) :
    ofJson (.str t.zuluText) = .ok ⟨t.date, t.time.cut, some .utc⟩ := by
  have htext : t.zuluText = String.ofList
      (dateText t.date ++ 'T' :: clockText t.time.hour t.time.minute t.time.second ++ ['Z']) := by
    rw [← toList_zuluText h, String.ofList_toList]
  have hgiven : (Json.str t.zuluText).given = true := by
    rw [Json.given_str, bne_iff_ne]
    intro hempty
    have hlist := toList_zuluText h
    rw [hempty] at hlist
    exact absurd hlist.symm (by simp)
  have hmark : 'Z' ∉ dateText t.date ++
      'T' :: clockText t.time.hour t.time.minute t.time.second := by
    rw [List.mem_append, List.mem_cons, dateText_eq, clockText_eq]
    rintro (hdate | hmiddle | hclock)
    · exact not_mem_separated (by decide) (by decide) hdate
    · exact absurd hmiddle (by decide)
    · exact not_mem_separated (by decide) (by decide) hclock
  unfold ofJson
  rw [hgiven, Bool.not_true, if_neg Bool.false_ne_true, Json.text_str, htext,
    zuluAsOffset_concat hmark]
  dsimp only
  rw [String.toList_ofList, List.append_assoc, List.cons_append, read_utc]
  rfl

end Timestamp

end ClusterBackup
