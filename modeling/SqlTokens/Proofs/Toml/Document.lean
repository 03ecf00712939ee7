import SqlTokens.Proofs.Fold
import SqlTokens.Proofs.Toml.Table
import SqlTokens.Toml.Document

/-!
# Documents give no key twice

A document is read lexeme by lexeme, and what has been read at any time holds no key twice
(`Reading.isKeyed_of_take`): inside of a line the tables between braces grow as tables do, and the
statements of the lines build one table, which grows likewise. So whatever a document says, it says
it once (`areKeyed_of_read?`).
-/

namespace SqlTokens.Toml

theorem isKeyed_of_scalar? {spelling : List Char} {value : Value}
    (h : scalar? spelling = some value) : value.IsKeyed := by
  rw [scalar?] at h
  split at h
  · cases h
    exact .boolean true
  split at h
  · cases h
    exact .boolean false
  split at h
  · cases h
    exact .moment spelling
  split at h
  · cases h
    exact .float spelling
  split at h
  · cases h
    exact .integer _
  split at h
  · cases h
    exact .misspelt spelling
  · obtain ⟨decimal, -, rfl⟩ := Option.map_eq_some_iff.mp h
    exact .float spelling

/-- A statement gives no key twice in a value. -/
def Statement.IsKeyed : Statement → Prop
  | .entry _ value => value.IsKeyed
  | .table _ | .item _ => True

/-- The part of a value that has been read already gives no key twice. -/
def Frame.IsKeyed : Frame → Prop
  | .entry _ => True
  | .array items => ∀ item ∈ items, item.IsKeyed
  | .inline entries _ => AreKeyed entries

/-- The values that a key is part of give no key twice. -/
def KeyUse.IsKeyed : KeyUse → Prop
  | .inline entries outer => AreKeyed entries ∧ ∀ frame ∈ outer, frame.IsKeyed
  | .entry | .table | .item => True

/-- The values that are still open at a place give no key twice. -/
def Place.IsKeyed : Place → Prop
  | .key use _ | .keyEnd use _ => use.IsKeyed
  | .keyLine entries _ outer => (KeyUse.inline entries outer).IsKeyed
  | .value stack | .scalar _ stack | .dated _ stack | .valueEnd stack =>
    ∀ frame ∈ stack, frame.IsKeyed
  | .lineStart | .lineEnd | .header | .itemEnd _ => True

namespace Reading

/-- Nothing that has been read so far gives a key twice. -/
structure IsKeyed (reading : Reading) : Prop where
  statements : ∀ statement ∈ reading.statements, statement.IsKeyed
  place : reading.place.IsKeyed

section Steps

variable {reading reading' : Reading} {place : Place} {lexeme : Lexeme} {stack : List Frame}
  {value : Value} {statement : Statement} {use : KeyUse} {path : List Key}

theorem isKeyed_of_goto (h : reading.IsKeyed) (hgoto : reading.goto place = some reading')
    (hplace : place.IsKeyed) : reading'.IsKeyed := by
  cases hgoto
  exact ⟨h.statements, hplace⟩

theorem isKeyed_of_state (h : reading.IsKeyed) (hstate : reading.state statement = some reading')
    (hstatement : statement.IsKeyed) : reading'.IsKeyed := by
  cases hstate
  exact ⟨List.forall_mem_cons.mpr ⟨hstatement, h.statements⟩, trivial⟩

theorem isKeyed_of_deliver (h : reading.IsKeyed) (hvalue : value.IsKeyed)
    (hstack : ∀ frame ∈ stack, frame.IsKeyed)
    (hdeliver : reading.deliver value stack = some reading') : reading'.IsKeyed := by
  unfold deliver at hdeliver
  split at hdeliver
  · exact isKeyed_of_state h hdeliver hvalue
  · next items outer =>
    obtain ⟨hitems, houter⟩ := List.forall_mem_cons.mp hstack
    have hmore : (Frame.array (value :: items)).IsKeyed := List.forall_mem_cons.mpr ⟨hvalue, hitems⟩
    exact isKeyed_of_goto h hdeliver (List.forall_mem_cons.mpr ⟨hmore, houter⟩)
  · next entries path outer =>
    obtain ⟨hentries, houter⟩ := List.forall_mem_cons.mp hstack
    obtain ⟨table, hinsert, hdeliver⟩ := Option.bind_eq_some_iff.mp hdeliver
    obtain ⟨entries', hentries', hdeliver⟩ := Option.bind_eq_some_iff.mp hdeliver
    have hmore : (Frame.inline entries' []).IsKeyed :=
      areKeyed_of_entries? (isKeyed_of_insert hvalue hentries hinsert) hentries'
    exact isKeyed_of_goto h hdeliver (List.forall_mem_cons.mpr ⟨hmore, houter⟩)
  · cases hdeliver

theorem isKeyed_of_deliver_array {items : List Value} (h : reading.IsKeyed)
    (hstack : ∀ frame ∈ .array items :: stack, frame.IsKeyed)
    (hdeliver : reading.deliver (.array false items.reverse) stack = some reading') :
    reading'.IsKeyed := by
  obtain ⟨hitems, houter⟩ := List.forall_mem_cons.mp hstack
  apply isKeyed_of_deliver h _ houter hdeliver
  exact isKeyed_array_iff.mpr fun item hitem => hitems item (List.mem_reverse.mp hitem)

theorem isKeyed_of_takeBehind (h : reading.IsKeyed)
    (htake : reading.takeBehind lexeme = some reading') : reading'.IsKeyed := by
  have hplace := h.place
  unfold takeBehind at htake
  split at htake
  case h_1 | h_3 | h_4 =>
    cases htake
    exact h
  case h_2 => exact isKeyed_of_goto h htake trivial
  case h_5 heq =>
    rw [heq] at hplace
    exact isKeyed_of_goto h htake hplace
  case h_6 heq =>
    rw [heq] at hplace
    exact isKeyed_of_deliver_array h hplace htake
  case h_7 heq =>
    rw [heq] at hplace
    exact isKeyed_of_goto h htake (List.forall_mem_cons.mp hplace)
  case h_8 heq =>
    rw [heq] at hplace
    obtain ⟨hentries, houter⟩ := List.forall_mem_cons.mp hplace
    exact isKeyed_of_deliver h (isKeyed_table_iff.mpr hentries) houter htake
  case h_9 => cases htake

theorem isKeyed_of_finishScalar {spelling : List Char} (h : reading.IsKeyed)
    (hstack : ∀ frame ∈ stack, frame.IsKeyed)
    (hfinish : reading.finishScalar spelling stack = some reading') : reading'.IsKeyed := by
  obtain ⟨value, hvalue, hdeliver⟩ := Option.bind_eq_some_iff.mp hfinish
  exact isKeyed_of_deliver h (isKeyed_of_scalar? hvalue) hstack hdeliver

/-- An unquoted value is over, and the lexeme behind it is taken. -/
theorem isKeyed_of_finishScalar_takeBehind {spelling : List Char} (h : reading.IsKeyed)
    (hstack : ∀ frame ∈ stack, frame.IsKeyed)
    (htake : (reading.finishScalar spelling stack).bind (·.takeBehind lexeme) = some reading') :
    reading'.IsKeyed := by
  obtain ⟨finished, hfinish, htake⟩ := Option.bind_eq_some_iff.mp htake
  exact isKeyed_of_takeBehind (isKeyed_of_finishScalar h hstack hfinish) htake

theorem isKeyed_of_startKey (h : reading.IsKeyed)
    (hstart : reading.startKey use path lexeme = some reading') (huse : use.IsKeyed) :
    reading'.IsKeyed := by
  unfold startKey at hstart
  split at hstart
  · exact isKeyed_of_goto h hstart huse
  · split at hstart
    · exact isKeyed_of_goto h hstart huse
    · cases hstart
  · cases hstart

theorem isKeyed_of_nest (h : reading.IsKeyed) (hnest : reading.nest stack place = some reading')
    (hplace : place.IsKeyed) : reading'.IsKeyed := by
  rw [nest] at hnest
  split at hnest
  · exact isKeyed_of_goto h hnest hplace
  · cases hnest

theorem isKeyed_of_take (h : reading.IsKeyed) (htake : reading.take lexeme = some reading') :
    reading'.IsKeyed := by
  have hplace := h.place
  have hsame : some reading = some reading' → reading'.IsKeyed := by
    rintro ⟨⟩
    exact h
  -- One case for each place, and in it one for each lexeme that can be taken there.
  unfold take at htake
  split at htake
  case h_1 heq =>
    split at htake
    · exact hsame htake
    · exact hsame htake
    · exact isKeyed_of_goto h htake trivial
    · exact isKeyed_of_startKey h htake trivial
  case h_2 heq =>
    split at htake
    · exact isKeyed_of_goto h htake trivial
    · exact isKeyed_of_goto h htake trivial
    · exact isKeyed_of_startKey h htake trivial
  case h_3 path heq =>
    split at htake
    · exact isKeyed_of_state h htake trivial
    · cases htake
  case h_4 use path heq =>
    rw [heq] at hplace
    split at htake
    · exact hsame htake
    · exact hsame htake
    · exact isKeyed_of_deliver h (isKeyed_table_iff.mpr hplace.1) hplace.2 htake
    · exact isKeyed_of_startKey h htake hplace
  case h_5 use path heq =>
    rw [heq] at hplace
    split at htake
    · exact hsame htake
    · exact isKeyed_of_goto h htake hplace
    · exact isKeyed_of_goto h htake (by simp [Place.IsKeyed, Frame.IsKeyed])
    · exact isKeyed_of_goto h htake (List.forall_mem_cons.mpr hplace)
    · exact isKeyed_of_goto h htake hplace
    · exact isKeyed_of_state h htake trivial
    · exact isKeyed_of_goto h htake trivial
    · cases htake
  case h_6 entries path outer heq =>
    rw [heq] at hplace
    split at htake
    · exact hsame htake
    · exact hsame htake
    · exact isKeyed_of_goto h htake (List.forall_mem_cons.mpr hplace)
    · cases htake
  case h_7 stack heq =>
    rw [heq] at hplace
    split at htake
    · exact hsame htake
    · exact hsame htake
    · exact hsame htake
    · exact isKeyed_of_deliver_array h hplace htake
    · exact isKeyed_of_nest h htake (List.forall_mem_cons.mpr ⟨List.forall_mem_nil _, hplace⟩)
    · exact isKeyed_of_nest h htake ⟨.nil, hplace⟩
    · exact isKeyed_of_deliver h (.string _) hplace htake
    · exact isKeyed_of_goto h htake hplace
    · cases htake
  case h_8 spelling stack heq =>
    rw [heq] at hplace
    split at htake
    · exact isKeyed_of_goto h htake hplace
    · exact isKeyed_of_goto h htake hplace
    · split at htake
      · exact isKeyed_of_goto h htake hplace
      · exact isKeyed_of_finishScalar_takeBehind h hplace htake
    · exact isKeyed_of_finishScalar_takeBehind h hplace htake
  case h_9 spelling stack heq =>
    rw [heq] at hplace
    split at htake
    · exact isKeyed_of_goto h htake hplace
    · exact isKeyed_of_finishScalar_takeBehind h hplace htake
  case h_10 | h_11 => exact isKeyed_of_takeBehind h htake

theorem isKeyed_of_finish {statements : List Statement} (h : reading.IsKeyed)
    (hfinish : reading.finish = some statements) :
    ∀ statement ∈ statements, statement.IsKeyed := by
  have hplace := h.place
  -- The last value may still be open at the end, which makes one more statement of it.
  obtain ⟨last, hlast, hend⟩ : ∃ last : Reading, last.IsKeyed ∧
      some last.statements.reverse = some statements := by
    unfold finish at hfinish
    split at hfinish
    case h_1 | h_2 =>
      next heq =>
      rw [heq] at hplace
      obtain ⟨last, hscalar, hend⟩ := Option.bind_eq_some_iff.mp hfinish
      refine ⟨last, isKeyed_of_finishScalar h hplace hscalar, ?_⟩
      dsimp only at hend
      split at hend
      · exact hend
      · exact hend
      · cases hend
    case h_3 =>
      obtain ⟨last, hsame, hend⟩ := Option.bind_eq_some_iff.mp hfinish
      cases hsame
      refine ⟨reading, h, ?_⟩
      dsimp only at hend
      split at hend
      · exact hend
      · exact hend
      · cases hend
  intro statement hmem
  cases hend
  exact hlast.statements statement (List.mem_reverse.mp hmem)

end Steps

end Reading

theorem isKeyed_of_statements? {lexemes : List Lexeme} {statements : List Statement}
    (h : statements? lexemes = some statements) : ∀ statement ∈ statements, statement.IsKeyed := by
  obtain ⟨reading, htake, hfinish⟩ := Option.bind_eq_some_iff.mp h
  have hstart : Reading.start.IsKeyed := ⟨List.forall_mem_nil _, trivial⟩
  have hreading : reading.IsKeyed :=
    invariant_of_foldlM Reading.IsKeyed (fun _ _ _ _ => Reading.isKeyed_of_take) hstart htake
  exact Reading.isKeyed_of_finish hreading hfinish

theorem areKeyed_of_follow {building building' : Building} {statement : Statement}
    (h : AreKeyed building.root) (hstatement : statement.IsKeyed)
    (hfollow : building.follow statement = some building') : AreKeyed building'.root := by
  cases statement with
  | table path =>
    obtain ⟨table, htable, hfollow⟩ := Option.bind_eq_some_iff.mp hfollow
    obtain ⟨entries, hentries, heq⟩ := Option.bind_eq_some_iff.mp hfollow
    cases heq
    exact areKeyed_of_entries? (isKeyed_of_follow (fun _ _ _ _ => isKeyed_of_openTable) h htable)
      hentries
  | item path =>
    obtain ⟨table, htable, hfollow⟩ := Option.bind_eq_some_iff.mp hfollow
    obtain ⟨entries, hentries, heq⟩ := Option.bind_eq_some_iff.mp hfollow
    cases heq
    exact areKeyed_of_entries? (isKeyed_of_follow (fun _ _ _ _ => isKeyed_of_openItem) h htable)
      hentries
  | entry path value =>
    obtain ⟨table, htable, hfollow⟩ := Option.bind_eq_some_iff.mp hfollow
    obtain ⟨entries, hentries, heq⟩ := Option.bind_eq_some_iff.mp hfollow
    cases heq
    exact areKeyed_of_entries? (isKeyed_of_insertBelow hstatement h htable) hentries

/-- A document gives no key twice, in whatever table. -/
theorem areKeyed_of_read? {text : List Char} {entries : Entries} (h : read? text = some entries) :
    AreKeyed entries := by
  obtain ⟨lexemes, -, h⟩ := Option.bind_eq_some_iff.mp h
  obtain ⟨statements, hstatements, h⟩ := Option.bind_eq_some_iff.mp h
  obtain ⟨building, hfollow, heq⟩ := Option.bind_eq_some_iff.mp h
  cases heq
  have hkeyed := isKeyed_of_statements? hstatements
  refine invariant_of_foldlM (fun building => AreKeyed building.root) ?_ .nil hfollow
  intro building statement hmem building' h
  exact areKeyed_of_follow h (hkeyed statement hmem)

end SqlTokens.Toml
