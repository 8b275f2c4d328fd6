/- The size of quoted values. What stands between quotes is decoded code point by code point, and the
limit is checked only at those that stand for themselves; so a value gets past it just where none of
its further code points does (`nextColumn_size`). -/
import Delimited.Proofs.Record.Scanning
import Delimited.Record.Driver

namespace Delimited

/-- What is still to be read from a place: code points, and the line ends between lines. -/
def ahead : Text → List Line → List (Option Char)
  | rest, [] => rest.map some
  | rest, line :: pending => rest.map some ++ none :: ahead line.text pending

/-- A code point of a quoted value. -/
structure Decoded where
  code : Char
  /-- It stands for itself, and is neither the quote, nor the escape, nor a line end. -/
  plain : Bool
  deriving DecidableEq

/-- How the next code point of a quoted value is decoded from what is ahead, and what is ahead then. -/
inductive DecodesOne (quote : Char) (escape : Option Char) :
    Decoded → List (Option Char) → List (Option Char) → Prop
  | plain {c : Char} {s : List (Option Char)} : c ≠ quote → escape ≠ some c →
      DecodesOne quote escape ⟨c, true⟩ (some c :: s) s
  | lineEnd {s : List (Option Char)} : DecodesOne quote escape ⟨'\n', false⟩ (none :: s) s
  | doubled {s : List (Option Char)} :
      DecodesOne quote escape ⟨quote, false⟩ (some quote :: some quote :: s) s
  | escaped {e c : Char} {s : List (Option Char)} : escape = some e → e ≠ quote → c = quote ∨ c = e →
      DecodesOne quote escape ⟨c, false⟩ (some e :: some c :: s) s
  /-- An escape before anything else is itself. -/
  | alone {e : Char} {s : List (Option Char)} : escape = some e → e ≠ quote →
      s.head? ≠ some (some quote) → s.head? ≠ some (some e) →
      DecodesOne quote escape ⟨e, false⟩ (some e :: s) s

/-- The code points of a quoted value that are decoded between two places. -/
inductive Decodes (quote : Char) (escape : Option Char) :
    List Decoded → List (Option Char) → List (Option Char) → Prop
  | done (s : List (Option Char)) : Decodes quote escape [] s s
  | next {p : Decoded} {points : List Decoded} {s s' s'' : List (Option Char)} :
      DecodesOne quote escape p s s' → Decodes quote escape points s' s'' →
      Decodes quote escape (p :: points) s s''

/-- The column at this place is a quoted value of these code points: it ends at a quote, and nothing
but spaces stands between that and the next delimiter. -/
inductive Encloses (d : Dialect) (at_ : Cursor) (points : List Decoded) : Prop
  | intro {quote : Char} {inside after : Text} {pending : List Line} {ending : Option Text} :
      opening d d.trim at_.rest = .quoted quote inside →
      Decodes quote d.escapeMark points (ahead inside at_.pending) (ahead (quote :: after) pending) →
      after.head? ≠ some quote → closing d.delimiter after = .ended ending → Encloses d at_ points

/-- None of these code points after the first `size` stands for itself. -/
def SpelledBeyond (size : Nat) (points : List Decoded) : Prop :=
  ∀ p ∈ points.drop size, p.plain = false

/-! ### What is ahead -/

section Ahead

variable {quote : Char} {escape : Option Char} {c : Char} {t rest : Text} {pending pending' : List Line}
  {s s' s'' : List (Option Char)}

@[simp] theorem ahead_cons (c : Char) (t : Text) (pending : List Line) :
    ahead (c :: t) pending = some c :: ahead t pending := by
  cases pending <;> rfl

@[simp] theorem ahead_nil_cons (line : Line) (pending : List Line) :
    ahead [] (line :: pending) = none :: ahead line.text pending := rfl

@[simp] theorem ahead_nil_nil : ahead [] [] = [] := rfl

theorem ahead_eq_some_cons (h : ahead rest pending = some c :: s) :
    ∃ t, rest = c :: t ∧ s = ahead t pending := by
  cases rest with
  | nil => cases pending <;> simp at h
  | cons a t =>
      obtain ⟨rfl, rfl⟩ : a = c ∧ ahead t pending = s := by simpa using h
      exact ⟨t, rfl, rfl⟩

theorem ahead_eq_none_cons (h : ahead rest pending = none :: s) :
    ∃ line later, rest = [] ∧ pending = line :: later ∧ s = ahead line.text later := by
  cases rest with
  | nil =>
      cases pending with
      | nil => simp at h
      | cons line later => exact ⟨line, later, rfl, rfl, (List.cons.inj h).2.symm⟩
  | cons a t => simp at h

theorem head?_ahead : (ahead rest pending).head? = some (some c) ↔ rest.head? = some c := by
  cases rest with
  | nil => cases pending <;> simp
  | cons a t => simp

/-- What is ahead in the line at hand does not depend on how the lines are divided up. -/
theorem ahead_left_inj (h : ahead rest pending = ahead t pending') : rest = t := by
  induction rest generalizing t with
  | nil =>
      cases t with
      | nil => rfl
      | cons c t => cases pending <;> simp at h
  | cons c rest ih =>
      obtain ⟨t', rfl, hrest⟩ := ahead_eq_some_cons ((ahead_cons c rest pending).symm.trans h).symm
      rw [ih hrest]

theorem length_of_decodesOne {p : Decoded} (h : DecodesOne quote escape p s s') :
    s'.length < s.length := by
  cases h <;> simp only [List.length_cons] <;> omega

theorem Decodes.append {points more : List Decoded} (h : Decodes quote escape points s s')
    (hmore : Decodes quote escape more s' s'') : Decodes quote escape (points ++ more) s s'' := by
  induction h with
  | done => exact hmore
  | next hone _ ih => exact .next hone (ih hmore)

/-- A code point is decoded, unless a quote closes the value or the lines have run out. -/
theorem decodesOne_or_stops (quote : Char) (escape : Option Char) (rest : Text)
    (pending : List Line) :
    (∃ p s, DecodesOne quote escape p (ahead rest pending) s) ∨
      (∃ t, rest = quote :: t ∧ t.head? ≠ some quote) ∨ rest = [] ∧ pending = [] := by
  cases rest with
  | nil =>
      cases pending with
      | nil => exact .inr (.inr ⟨rfl, rfl⟩)
      | cons line pending => exact .inl ⟨_, _, .lineEnd⟩
  | cons c t =>
      rw [ahead_cons]
      by_cases hquote : c = quote
      · subst hquote
        by_cases hdouble : t.head? = some c
        · obtain ⟨t, rfl⟩ := List.head?_eq_some_iff.mp hdouble
          exact .inl ⟨_, _, by rw [ahead_cons]; exact .doubled⟩
        · exact .inr (.inl ⟨t, rfl, hdouble⟩)
      · by_cases hescape : escape = some c
        · by_cases hpair : ∃ c', t.head? = some c' ∧ (c' = quote ∨ c' = c)
          · obtain ⟨c', hhead, hc'⟩ := hpair
            obtain ⟨t, rfl⟩ := List.head?_eq_some_iff.mp hhead
            exact .inl ⟨_, _, by rw [ahead_cons]; exact .escaped hescape hquote hc'⟩
          · refine .inl ⟨_, _, .alone hescape hquote ?_ ?_⟩
            · exact fun hhead => hpair ⟨quote, head?_ahead.mp hhead, .inl rfl⟩
            · exact fun hhead => hpair ⟨c, head?_ahead.mp hhead, .inr rfl⟩
        · exact .inl ⟨_, _, .plain hquote hescape⟩

end Ahead

/-! ### Reading a quoted value -/

/-- The next code point may be read if it stands for something else or is within the limit. -/
theorem spelledBeyond_cons_iff {limit : Int} {size : Nat} {p : Decoded} {points : List Decoded} :
    SpelledBeyond (limit.toNat - size) (p :: points) ↔
      (p.plain = true → (size : Int) + 1 ≤ limit) ∧
        SpelledBeyond (limit.toNat - (size + 1)) points := by
  by_cases hfits : (size : Int) + 1 ≤ limit
  · obtain ⟨more, hmore⟩ : ∃ more, limit.toNat - size = more + 1 :=
      ⟨limit.toNat - (size + 1), by omega⟩
    have hless : limit.toNat - (size + 1) = more := by omega
    simp [SpelledBeyond, hmore, hless, hfits]
  · have hnone : limit.toNat - size = 0 := by omega
    have hless : limit.toNat - (size + 1) = 0 := by omega
    simp [SpelledBeyond, hnone, hless, hfits]

section Run

variable {d : Dialect} {quote : Char} {limit : Int} {rest : Text} {pending : List Line}
  {points : List Decoded} {s : List (Option Char)}

/-- A code point that is decoded is read, if it is not refused for the limit. -/
theorem scanQuoted_decodesOne {p : Decoded} (value : Text) (earlier : List Line) (line : Line)
    (h : DecodesOne quote d.escapeMark p (ahead rest pending) s)
    (hfits : p.plain = true → (value.length : Int) + 1 ≤ limit) :
    ∃ earlier' line' rest' pending', s = ahead rest' pending' ∧
      scanQuoted d quote limit value earlier line rest pending =
        scanQuoted d quote limit (value ++ [p.code]) earlier' line' rest' pending' := by
  generalize hahead : ahead rest pending = from_ at h
  cases h with
  | @plain c _ hquote hescape =>
      obtain ⟨t, rfl, rfl⟩ := ahead_eq_some_cons hahead
      have hcut := cutQuoted_plain hquote hescape (hfits rfl) t
      exact ⟨earlier, line, t, pending, rfl, scanQuoted_read [c] hcut⟩
  | lineEnd =>
      obtain ⟨next, later, rfl, rfl, rfl⟩ := ahead_eq_none_cons hahead
      exact ⟨earlier ++ [line], next, next.text, later, rfl, scanQuoted_lineEnd next⟩
  | doubled =>
      obtain ⟨t, rfl, hahead'⟩ := ahead_eq_some_cons hahead
      obtain ⟨t, rfl, rfl⟩ := ahead_eq_some_cons hahead'.symm
      exact ⟨earlier, line, t, pending, rfl, scanQuoted_read [quote, quote] (cutQuoted_doubled t)⟩
  | @escaped e c _ hescape hne hc =>
      obtain ⟨t, rfl, hahead'⟩ := ahead_eq_some_cons hahead
      obtain ⟨t, rfl, rfl⟩ := ahead_eq_some_cons hahead'.symm
      exact ⟨earlier, line, t, pending, rfl, scanQuoted_read [e, c] (cutQuoted_escaped hescape hc t)⟩
  | @alone e _ hescape hne hquote hsame =>
      obtain ⟨t, rfl, rfl⟩ := ahead_eq_some_cons hahead
      refine ⟨earlier, line, t, pending, rfl, scanQuoted_read [e] ?_⟩
      exact cutQuoted_alone hescape hne (mt head?_ahead.mpr hquote) (mt head?_ahead.mpr hsame)

/-- Code points that are decoded one after the other are read, if none is refused for the limit. -/
theorem scanQuoted_decodes (value : Text) (earlier : List Line) (line : Line)
    (h : Decodes quote d.escapeMark points (ahead rest pending) s)
    (hfits : SpelledBeyond (limit.toNat - value.length) points) :
    ∃ earlier' line' rest' pending', s = ahead rest' pending' ∧
      scanQuoted d quote limit value earlier line rest pending =
        scanQuoted d quote limit (value ++ points.map Decoded.code) earlier' line' rest' pending' := by
  generalize hahead : ahead rest pending = from_ at h
  induction h generalizing value earlier line rest pending with
  | done => exact ⟨earlier, line, rest, pending, hahead.symm, by simp⟩
  | @next p points _ _ _ hone hmore ih =>
      obtain ⟨hplain, hrest⟩ := spelledBeyond_cons_iff.mp hfits
      subst hahead
      obtain ⟨earlier₁, line₁, rest₁, pending₁, rfl, hstep⟩ :=
        scanQuoted_decodesOne value earlier line hone hplain
      have hsize : (value ++ [p.code]).length = value.length + 1 := by simp
      rw [← hsize] at hrest
      obtain ⟨earlier', line', rest', pending', hs, hrun⟩ :=
        ih (value ++ [p.code]) earlier₁ line₁ hrest rfl
      refine ⟨earlier', line', rest', pending', hs, ?_⟩
      rw [hstep, hrun, List.append_assoc, List.map_cons, List.singleton_append]

/-- Where reading inside quotes comes to an end, after a value of some size. -/
inductive Halts (d : Dialect) (quote : Char) (limit : Int) (size : Nat) : Text → List Line → Prop
  | oversized {c : Char} {t : Text} {pending : List Line} : c ≠ quote → d.escapeMark ≠ some c →
      limit < (size : Int) + 1 → Halts d quote limit size (c :: t) pending
  | closed {t : Text} {ending : Option Text} {pending : List Line} : t.head? ≠ some quote →
      closing d.delimiter t = .ended ending → Halts d quote limit size (quote :: t) pending
  | stray {t after : Text} {found : Char} {pending : List Line} : t.head? ≠ some quote →
      closing d.delimiter t = .stray found after → Halts d quote limit size (quote :: t) pending
  | ranOut : Halts d quote limit size [] []

/-- Reading either halts or goes on with a code point that may be read. -/
theorem halts_or_decodesOne (d : Dialect) (quote : Char) (limit : Int) (size : Nat) (rest : Text)
    (pending : List Line) :
    Halts d quote limit size rest pending ∨
      ∃ p s, DecodesOne quote d.escapeMark p (ahead rest pending) s ∧
        (p.plain = true → (size : Int) + 1 ≤ limit) := by
  rcases decodesOne_or_stops quote d.escapeMark rest pending with
    ⟨p, s, hone⟩ | ⟨t, rfl, hhead⟩ | ⟨rfl, rfl⟩
  · by_cases hfits : p.plain = true → (size : Int) + 1 ≤ limit
    · exact .inr ⟨p, s, hone, hfits⟩
    · obtain ⟨hplain, hover⟩ := Classical.not_imp.mp hfits
      generalize hahead : ahead rest pending = from_ at hone
      cases hone with
      | plain hquote hescape =>
          obtain ⟨t, rfl, -⟩ := ahead_eq_some_cons hahead
          exact .inl (.oversized hquote hescape (Int.not_le.mp hover))
      | lineEnd | doubled | escaped | alone => contradiction
  · cases hclosing : closing d.delimiter t with
    | ended ending => exact .inl (.closed hhead hclosing)
    | stray found after => exact .inl (.stray hhead hclosing)
  · exact .inl .ranOut

/-- Reading inside quotes decodes code points up to where it halts. -/
theorem scanQuoted_halts (d : Dialect) (quote : Char) (limit : Int) (value : Text)
    (earlier : List Line) (line : Line) (rest : Text) (pending : List Line) :
    ∃ points earlier' line' rest' pending',
      Decodes quote d.escapeMark points (ahead rest pending) (ahead rest' pending') ∧
        SpelledBeyond (limit.toNat - value.length) points ∧
        scanQuoted d quote limit value earlier line rest pending =
          scanQuoted d quote limit (value ++ points.map Decoded.code) earlier' line' rest' pending' ∧
        Halts d quote limit (value.length + points.length) rest' pending' := by
  -- Every code point that is decoded leaves less ahead.
  induction hsize : (ahead rest pending).length using Nat.strongRecOn
    generalizing value earlier line rest pending with
  | ind size ih =>
    rcases halts_or_decodesOne d quote limit value.length rest pending with
      hhalts | ⟨p, s, hone, hfits⟩
    · exact ⟨[], earlier, line, rest, pending, .done _, by simp [SpelledBeyond], by simp, hhalts⟩
    · have hless := length_of_decodesOne hone
      obtain ⟨earlier₁, line₁, rest₁, pending₁, rfl, hstep⟩ :=
        scanQuoted_decodesOne value earlier line hone hfits
      obtain ⟨points, earlier', line', rest', pending', hmore, hspelled, hrun, hhalts⟩ :=
        ih _ (hsize ▸ hless) (value ++ [p.code]) earlier₁ line₁ rest₁ pending₁ rfl
      have hlength : (value ++ [p.code]).length = value.length + 1 := by simp
      rw [hlength] at hspelled hhalts
      refine ⟨p :: points, earlier', line', rest', pending', .next hone hmore,
        spelledBeyond_cons_iff.mpr ⟨hfits, hspelled⟩, ?_, ?_⟩
      · rw [hstep, hrun, List.append_assoc, List.map_cons, List.singleton_append]
      · rwa [List.length_cons, Nat.add_comm points.length, ← Nat.add_assoc]

end Run

section Column

variable {d : Dialect} {limit : Int} {at_ : Cursor} {value : Text} {points : List Decoded}

/-- A column is read as a quoted value of these code points, whatever their number, if none of those
beyond the limit stands for itself. -/
theorem scanColumn_encloses (hd : d.delimiter ≠ []) (h : Encloses d at_ points)
    (hspelled : SpelledBeyond limit.toNat points) :
    ∃ stop, (scanColumn d limit at_).ended = some (points.map Decoded.code, true, stop) := by
  obtain ⟨hopening, hdecodes, hhead, hclosing⟩ := h
  obtain ⟨earlier, line, rest, pending, hahead, hrun⟩ :=
    scanQuoted_decodes [] [] at_.line hdecodes (by simpa using hspelled)
  obtain rfl := ahead_left_inj hahead
  rw [List.nil_append, scanQuoted_close hhead hclosing] at hrun
  rw [scanColumn_quoted hd hopening, hrun, Scan.ended_ofRest]
  exact ⟨_, rfl⟩

/-- A column that is opened by a quote is read up to where that halts. -/
theorem scanColumn_halts (hd : d.delimiter ≠ []) {quote : Char} {inside : Text} (limit : Int)
    (hopening : opening d d.trim at_.rest = .quoted quote inside) :
    ∃ points earlier line rest pending,
      Decodes quote d.escapeMark points (ahead inside at_.pending) (ahead rest pending) ∧
        SpelledBeyond limit.toNat points ∧
        scanColumn d limit at_ =
          scanQuoted d quote limit (points.map Decoded.code) earlier line rest pending ∧
        Halts d quote limit points.length rest pending := by
  obtain ⟨points, earlier, line, rest, pending, hdecodes, hspelled, hrun, hhalts⟩ :=
    scanQuoted_halts d quote limit [] [] at_.line inside at_.pending
  refine ⟨points, earlier, line, rest, pending, hdecodes, by simpa using hspelled, ?_,
    by simpa using hhalts⟩
  rw [scanColumn_quoted hd hopening, hrun, List.nil_append]

/-- A quoted value that is read is one that the column encloses, and none of its code points beyond
the limit stands for itself. -/
theorem encloses_of_scanColumn (hd : d.delimiter ≠ []) {stop : Cursor}
    (h : (scanColumn d limit at_).ended = some (value, true, stop)) :
    ∃ points, Encloses d at_ points ∧ value = points.map Decoded.code ∧
      SpelledBeyond limit.toNat points := by
  cases hopening : opening d d.trim at_.rest with
  | bare t => simp [scanColumn_bare hd hopening] at h
  | quoted quote inside =>
      obtain ⟨points, earlier, line, rest, pending, hdecodes, hspelled, hscan, hhalts⟩ :=
        scanColumn_halts hd limit hopening
      rw [hscan] at h
      cases hhalts with
      | oversized hquote hescape hover =>
          rw [scanQuoted_oversized hquote hescape (by simpa using hover)] at h
          contradiction
      | closed hhead hclosing =>
          rw [scanQuoted_close hhead hclosing, Scan.ended_ofRest] at h
          obtain ⟨rfl, -⟩ := Prod.mk.inj (Option.some.inj h)
          exact ⟨points, ⟨hopening, hdecodes, hhead, hclosing⟩, rfl, hspelled⟩
      | stray hhead hclosing =>
          rw [scanQuoted_stray hhead hclosing] at h
          contradiction
      | ranOut =>
          rw [scanQuoted_unclosed] at h
          contradiction

/-- A column is refused for the limit after code points that exceed it. -/
theorem decodes_of_oversized (hd : d.delimiter ≠ []) {n : Int} {earlier : List Line} {stop : Cursor}
    (h : scanColumn d limit at_ = .malformed (.oversized n) earlier stop) :
    n = limit ∧ ∃ quote inside points, opening d d.trim at_.rest = .quoted quote inside ∧
      Decodes quote d.escapeMark points (ahead inside at_.pending) (ahead stop.rest stop.pending) ∧
      limit < points.length := by
  cases hopening : opening d d.trim at_.rest with
  | bare t =>
      rw [scanColumn_bare hd hopening] at h
      cases hrest : (cutBare d.delimiter t).2 <;> simp [hrest, Scan.ofRest] at h
  | quoted quote inside =>
      obtain ⟨points, earlier, line, rest, pending, hdecodes, -, hscan, hhalts⟩ :=
        scanColumn_halts hd limit hopening
      rw [hscan] at h
      cases hhalts with
      | @oversized c t _ hquote hescape hover =>
          rw [scanQuoted_oversized hquote hescape (by simpa using hover)] at h
          obtain ⟨hfault, -, rfl⟩ := Scan.malformed.inj h
          have hlast : DecodesOne quote d.escapeMark ⟨c, true⟩ (ahead (c :: t) pending)
              (ahead t pending) := by
            rw [ahead_cons]
            exact .plain hquote hescape
          exact ⟨(Fault.oversized.inj hfault).symm, quote, inside, points ++ [⟨c, true⟩], rfl,
            hdecodes.append (.next hlast (.done _)), by simpa using hover⟩
      | @closed _ ending _ hhead hclosing =>
          rw [scanQuoted_close hhead hclosing] at h
          cases ending <;> contradiction
      | stray hhead hclosing =>
          rw [scanQuoted_stray hhead hclosing] at h
          simp at h
      | ranOut =>
          rw [scanQuoted_unclosed] at h
          contradiction

end Column

namespace Reader

variable {d : Dialect} {limit : Int} {r : Reader} {start : Cursor} {value : Text}

theorem nextColumn_ended_iff {quoted : Bool} (hr : r.At start) :
    (∃ r', r.nextColumn d limit = (.ok value, r') ∧ r'.quoted = quoted) ↔
      ∃ stop, (scanColumn d limit start).ended = some (value, quoted, stop) := by
  cases hscan : scanColumn d limit start with
  | more => simp [nextColumn_more hr hscan, Scan.ended, and_assoc]
  | last => simp [nextColumn_last hr hscan, Scan.ended, and_assoc]
  | unclosed => simp [nextColumn_unclosed hr hscan, Scan.ended]
  | malformed => simp [nextColumn_malformed hr hscan, Scan.ended]
  | undivided => simp [nextColumn_undivided hr hscan, Scan.ended]

/-- The quoted values that are read are those none of whose code points beyond the limit stands for
itself. -/
theorem nextColumn_quoted_iff (hd : d.delimiter ≠ []) :
    (∃ r', r.nextColumn d limit = (.ok value, r') ∧ r'.quoted = true) ↔
      ∃ start points, r.At start ∧ Encloses d start points ∧ value = points.map Decoded.code ∧
        SpelledBeyond limit.toNat points := by
  constructor
  · intro h
    cases hr : r.position with
    | between at_ => simp [nextColumn_between hr] at h
    | within line rest =>
        obtain ⟨start, hat⟩ := exists_at hr
        obtain ⟨stop, hended⟩ := (nextColumn_ended_iff hat).mp h
        obtain ⟨points, hencloses, hvalue, hspelled⟩ := encloses_of_scanColumn hd hended
        exact ⟨start, points, hat, hencloses, hvalue, hspelled⟩
  · rintro ⟨start, points, hat, hencloses, rfl, hspelled⟩
    exact (nextColumn_ended_iff hat).mpr (scanColumn_encloses hd hencloses hspelled)

theorem nextColumn_oversized (hd : d.delimiter ≠ []) {n number : Int} {r' : Reader}
    (h : r.nextColumn d limit = (.error (.fault (.oversized n) number), r')) :
    n = limit ∧ ∃ start stop quote inside points, r.At start ∧ r'.At stop ∧
      number = stop.line.number ∧ opening d d.trim start.rest = .quoted quote inside ∧
      Decodes quote d.escapeMark points (ahead inside start.pending)
        (ahead stop.rest stop.pending) ∧ limit < points.length := by
  cases hr : r.position with
  | between at_ => simp [nextColumn_between hr] at h
  | within line rest =>
      obtain ⟨start, hat⟩ := exists_at hr
      cases hscan : scanColumn d limit start with
      | more => simp [nextColumn_more hat hscan] at h
      | last => simp [nextColumn_last hat hscan] at h
      | unclosed => simp [nextColumn_unclosed hat hscan] at h
      | undivided => simp [nextColumn_undivided hat hscan] at h
      | malformed fault earlier stop =>
          obtain ⟨⟨rfl, rfl⟩, rfl⟩ :
              (fault = .oversized n ∧ stop.line.number = number) ∧ _ = r' := by
            simpa [nextColumn_malformed hat hscan] using h
          obtain ⟨hn, quote, inside, points, hopening, hdecodes, hover⟩ :=
            decodes_of_oversized hd hscan
          exact ⟨hn, start, stop, quote, inside, points, hat, ⟨rfl, rfl⟩, rfl, hopening, hdecodes,
            hover⟩

/-- The quoted value that is read after any calls keeps within the limit, unless the column encloses
more code points and those beyond the limit are all spelled by something else. It is refused for the
limit only after code points that exceed it. -/
theorem nextColumn_size (hd : d.delimiter ≠ []) (limit : Int) (lines : List Line)
    (calls : List Call) :
    ((∀ value r', ((ofLines lines).after d limit calls).nextColumn d limit = (.ok value, r') →
        r'.quoted = true → (value.length : Int) ≤ limit) ↔
      ∀ start points, ((ofLines lines).after d limit calls).At start → Encloses d start points →
        SpelledBeyond limit.toNat points → (points.length : Int) ≤ limit) ∧
    ∀ n number r', ((ofLines lines).after d limit calls).nextColumn d limit =
        (.error (.fault (.oversized n) number), r') →
      n = limit ∧ ∃ start stop quote inside points,
        ((ofLines lines).after d limit calls).At start ∧ r'.At stop ∧
        number = stop.line.number ∧ opening d d.trim start.rest = .quoted quote inside ∧
        Decodes quote d.escapeMark points (ahead inside start.pending)
          (ahead stop.rest stop.pending) ∧ limit < points.length := by
  refine ⟨⟨?_, ?_⟩, fun _ _ _ => nextColumn_oversized hd⟩
  · intro h start points hat hencloses hspelled
    obtain ⟨r', hnext, hquoted⟩ :=
      (nextColumn_quoted_iff hd).mpr ⟨start, points, hat, hencloses, rfl, hspelled⟩
    simpa using h _ r' hnext hquoted
  · intro h value r' hnext hquoted
    obtain ⟨start, points, hat, hencloses, rfl, hspelled⟩ :=
      (nextColumn_quoted_iff hd).mp ⟨r', hnext, hquoted⟩
    simpa using h start points hat hencloses hspelled

/-- The first value is as long as the limit, and the second one is refused when it gets longer. -/
theorem nextColumn_size_two_values :
    (∀ start points,
      ((ofLines [⟨1, ['"', 'a', 'b', '"', ',', '"', 'c', 'd', 'e', '"']⟩]).after
        ⟨[','], some ['"'], none, none, false⟩ 2 [.nextRecord true]).At start →
      Encloses ⟨[','], some ['"'], none, none, false⟩ start points →
      SpelledBeyond 2 points → (points.length : Int) ≤ 2) ∧
    ∃ start quote inside points, ∃ stop : Cursor,
      ((ofLines [⟨1, ['"', 'a', 'b', '"', ',', '"', 'c', 'd', 'e', '"']⟩]).after
        ⟨[','], some ['"'], none, none, false⟩ 2 [.nextRecord true, .nextColumn]).At start ∧
      opening ⟨[','], some ['"'], none, none, false⟩ false start.rest = .quoted quote inside ∧
      Decodes quote none points (ahead inside start.pending) (ahead stop.rest stop.pending) ∧
      (2 : Int) < points.length := by
  constructor
  · refine (nextColumn_size (by decide) 2 _ [.nextRecord true]).1.mp ?_
    intro value r' hnext _
    have hread : ((ofLines [⟨1, ['"', 'a', 'b', '"', ',', '"', 'c', 'd', 'e', '"']⟩]).after
        ⟨[','], some ['"'], none, none, false⟩ 2 [.nextRecord true]).nextColumn
        ⟨[','], some ['"'], none, none, false⟩ 2 =
      (.ok ['a', 'b'], ⟨[], .within ⟨1, ['"', 'a', 'b', '"', ',', '"', 'c', 'd', 'e', '"']⟩
        ['"', 'c', 'd', 'e', '"'], [], 1, true⟩) := rfl
    obtain ⟨rfl, -⟩ : ['a', 'b'] = value ∧ _ = r' := by simpa using hread.symm.trans hnext
    decide
  · have hread : ((ofLines [⟨1, ['"', 'a', 'b', '"', ',', '"', 'c', 'd', 'e', '"']⟩]).after
        ⟨[','], some ['"'], none, none, false⟩ 2 [.nextRecord true, .nextColumn]).nextColumn
        ⟨[','], some ['"'], none, none, false⟩ 2 =
      (.error (.fault (.oversized 2) 1), ⟨[], .within
        ⟨1, ['"', 'a', 'b', '"', ',', '"', 'c', 'd', 'e', '"']⟩ ['"'], [], 1, true⟩) := rfl
    obtain ⟨-, start, stop, quote, inside, points, hat, -, -, hopening, hdecodes, hover⟩ :=
      (nextColumn_size (by decide) 2 _ [.nextRecord true, .nextColumn]).2 2 1 _ hread
    exact ⟨start, quote, inside, points, stop, hat, hopening, hdecodes, hover⟩

/-- The last code point of a value of two stands for nothing but a doubled quote, and a limit of one
does not keep it out. -/
theorem nextColumn_size_doubled :
    ¬ ∀ value r', ((ofLines [⟨1, ['"', 'a', '"', '"', '"']⟩]).after
        ⟨[','], some ['"'], none, none, false⟩ 1 [.nextRecord true]).nextColumn
        ⟨[','], some ['"'], none, none, false⟩ 1 = (.ok value, r') →
      r'.quoted = true → (value.length : Int) ≤ 1 := by
  intro h
  have hread : ((ofLines [⟨1, ['"', 'a', '"', '"', '"']⟩]).after
      ⟨[','], some ['"'], none, none, false⟩ 1 [.nextRecord true]).nextColumn
      ⟨[','], some ['"'], none, none, false⟩ 1 =
    (.ok ['a', '"'],
      ⟨[], .between (some ⟨1, ['"', 'a', '"', '"', '"']⟩), [], 1, true⟩) := rfl
  exact absurd (h _ _ hread rfl) (by decide)

end Reader

end Delimited
