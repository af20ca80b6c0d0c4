import Dataflow.Session.Roster

/-!
# The text of a snapshot

A snapshot that is sorted by key, as `Snapshot.put` keeps it, is read back from its text
(`Snapshot.parse_text`). Reading follows the text from left to right, so each step of it has a lemma
that says what it makes of the characters written for one part, whatever stands behind them.
-/

set_option autoImplicit false
set_option relaxedAutoImplicit false

namespace Dataflow

namespace Json

/-! ### Escaped characters -/

theorem hexWord?_hexDigit : ∀ n < 32,
    Reader.hexWord? '0' '0' (hexDigit (n / 16)) (hexDigit (n % 16)) = some n := by
  decide

theorem textBody_plain {c : Char} (hcontrol : ¬ c.toNat < 32) (hquote : c ≠ '"')
    (hslash : c ≠ '\\') (rest done : List Char) :
    Reader.textBody (c :: rest) done = Reader.textBody rest (c :: done) := by
  rw [Reader.textBody.eq_def]
  split
  case h_4 heq =>
    obtain ⟨rfl, rfl⟩ := List.cons.inj heq
    exact if_neg (not_or.mpr ⟨hcontrol, hslash⟩)
  all_goals simp_all

theorem textBody_escapeChar (c : Char) (rest done : List Char) :
    Reader.textBody (escapeChar c ++ rest) done = Reader.textBody rest (c :: done) := by
  unfold escapeChar
  split
  case h_8 _ hquote hslash _ _ _ _ _ =>
    split
    case isTrue hcontrol =>
      have hword := hexWord?_hexDigit _ hcontrol
      simp only [List.cons_append, List.nil_append, Reader.textBody, hword]
      rw [if_neg (by omega), if_neg (by omega), Char.ofNat_toNat]
    case isFalse hcontrol => exact textBody_plain hcontrol hquote hslash rest done
  all_goals simp [Reader.textBody, Reader.shortEscape?]

/-- A text is read back from between its quotes. -/
theorem textBody_flatMap (cs rest done : List Char) :
    Reader.textBody (cs.flatMap escapeChar ++ '"' :: rest) done =
      some (done.reverse ++ cs, rest) := by
  induction cs generalizing done with
  | nil => simp [Reader.textBody]
  | cons c cs ih =>
    rw [List.flatMap_cons, List.append_assoc, textBody_escapeChar, ih]
    simp

theorem le_hexDigit : ∀ n < 16, 32 ≤ (hexDigit n).toNat := by
  decide

theorem le_of_mem_escapeChar {c d : Char} (h : d ∈ escapeChar c) : 32 ≤ d.toNat := by
  unfold escapeChar at h
  split at h
  case h_8 =>
    split at h
    case isTrue hcontrol =>
      simp only [List.mem_cons, List.not_mem_nil, or_false] at h
      obtain rfl | rfl | rfl | rfl | rfl | rfl := h
      · decide
      · decide
      · decide
      · decide
      · exact le_hexDigit _ (by omega)
      · exact le_hexDigit _ (by omega)
    case isFalse hcontrol =>
      rw [List.mem_singleton.mp h]
      omega
  all_goals
    simp only [List.mem_cons, List.not_mem_nil, or_false] at h
    obtain rfl | rfl := h <;> decide

theorem le_of_mem_quoted {s : String} {c : Char} (h : c ∈ (quoted s).toList) : 32 ≤ c.toNat := by
  simp only [quoted, String.toList_ofList, List.mem_cons, List.mem_append, List.mem_flatMap,
    List.not_mem_nil, or_false] at h
  obtain rfl | ⟨d, -, hd⟩ | rfl := h
  · decide
  · exact le_of_mem_escapeChar hd
  · decide

/-! ### Reading what is written -/

namespace Record

variable {α β : Type} {cs rest : List Char}

theorem bind_ok {step : Step α} {a : α} (h : step cs = .ok (a, rest)) (next : α → Step β) :
    (step >>= next) cs = next a rest := by
  simp [bind, StateT.bind, h, Except.bind]

theorem pure_apply (a : α) (cs : List Char) : (pure a : Step α) cs = .ok (a, cs) :=
  rfl

theorem get_apply (cs : List Char) : (get : Step (List Char)) cs = .ok (cs, cs) :=
  rfl

theorem peek_cons {c : Char} (hc : Reader.isBlank c = false) (rest : List Char) :
    peek (c :: rest) = .ok (some c, c :: rest) := by
  have hskip : Reader.skipBlanks (c :: rest) = c :: rest := by
    rw [Reader.skipBlanks, List.dropWhile_cons_of_neg (by simp [hc])]
  show Except.ok ((Reader.skipBlanks (c :: rest)).head?, Reader.skipBlanks (c :: rest)) = _
  rw [hskip]
  rfl

theorem taken_same {sign : Char} (hc : Reader.isBlank sign = false) (rest : List Char) :
    taken sign (sign :: rest) = .ok (true, rest) := by
  rw [taken, bind_ok (peek_cons hc rest), if_pos rfl]
  rfl

theorem taken_other {sign c : Char} (hc : Reader.isBlank c = false) (hne : c ≠ sign)
    (rest : List Char) : taken sign (c :: rest) = .ok (false, c :: rest) := by
  rw [taken, bind_ok (peek_cons hc rest), if_neg (fun h ↦ hne (Option.some.inj h))]
  rfl

theorem expect_same {sign : Char} (hc : Reader.isBlank sign = false) (rest : List Char) :
    expect sign (sign :: rest) = .ok ((), rest) := by
  rw [expect, bind_ok (taken_same hc rest)]
  rfl

theorem goesOn_comma (close : Char) (rest : List Char) :
    goesOn close (',' :: rest) = .ok (true, rest) := by
  rw [goesOn, bind_ok (taken_same rfl rest), if_pos rfl]
  rfl

theorem goesOn_close {close : Char} (hc : Reader.isBlank close = false) (hne : close ≠ ',')
    (rest : List Char) : goesOn close (close :: rest) = .ok (false, rest) := by
  rw [goesOn, bind_ok (taken_other hc hne rest), if_neg (by decide), bind_ok (expect_same hc rest)]
  rfl

theorem opening_same {sign : Char} (hc : Reader.isBlank sign = false) (hne : sign ≠ '"')
    (rest : List Char) : opening sign (sign :: rest) = .ok ((), rest) := by
  rw [opening, bind_ok (taken_other hc hne rest), if_neg (by decide), expect_same hc]

theorem read_of_ok {step : Step α} {a : α} (h : step cs = .ok (a, [])) : read step cs = .ok a := by
  have hwhole : ((step >>= fun a ↦ peek >>= fun next ↦
      if next.isSome then refuse else pure a) : Step α).run cs = .ok (a, []) := by
    rw [StateT.run, bind_ok h]
    rfl
  rw [read]
  simp only [hwhole]

theorem toList_quoted (s : String) (rest : List Char) :
    (quoted s).toList ++ rest = '"' :: (s.toList.flatMap escapeChar ++ '"' :: rest) := by
  simp [quoted]

theorem textBody_escaped (s : String) (rest : List Char) :
    textBody (s.toList.flatMap escapeChar ++ '"' :: rest) = .ok (s, rest) := by
  have hread := textBody_flatMap s.toList rest []
  rw [textBody, bind_ok (get_apply _), hread, need, bind_ok (pure_apply _ _)]
  show Except.ok (String.ofList ([].reverse ++ s.toList), rest) = _
  rw [List.reverse_nil, List.nil_append, String.ofList_toList]

theorem text_quoted (s : String) (rest : List Char) :
    text ((quoted s).toList ++ rest) = .ok (.text s, rest) := by
  rw [toList_quoted, text, bind_ok (expect_same rfl _), bind_ok (textBody_escaped s rest)]
  rfl

theorem name_quoted (s : String) (rest : List Char) :
    name ((quoted s).toList ++ ':' :: rest) = .ok (s, rest) := by
  rw [toList_quoted, name, bind_ok (expect_same rfl _), bind_ok (textBody_escaped s _),
    bind_ok (expect_same rfl rest)]
  rfl

/-- The members that texts by their keys make. -/
abbrev texts (members : List (String × String)) : List (String × Json) :=
  members.map fun (key, value) ↦ (key, .text value)

theorem toList_compactMembers_single (member : String × String) (rest : List Char) :
    (compactMembers (texts [member])).toList ++ rest =
      (quoted member.1).toList ++ ':' :: ((quoted member.2).toList ++ rest) := by
  simp [texts, compactMembers, compact]

theorem toList_compactMembers_cons (member next : String × String)
    (members : List (String × String)) (rest : List Char) :
    (compactMembers (texts (member :: next :: members))).toList ++ rest =
      (quoted member.1).toList ++ ':' :: ((quoted member.2).toList ++
        ',' :: ((compactMembers (texts (next :: members))).toList ++ rest)) := by
  simp [texts, compactMembers, compact]

theorem le_of_mem_texts {members : List (String × String)} {c : Char}
    (h : c ∈ (compactMembers (texts members)).toList) : 32 ≤ c.toNat := by
  induction members with
  | nil => exact absurd h List.not_mem_nil
  | cons member rest ih =>
    cases rest with
    | nil =>
      have hc := toList_compactMembers_single member []
      rw [List.append_nil, List.append_nil] at hc
      rw [hc, List.mem_append, List.mem_cons] at h
      obtain h | rfl | h := h
      · exact le_of_mem_quoted h
      · decide
      · exact le_of_mem_quoted h
    | cons next rest =>
      have hc := toList_compactMembers_cons member next rest []
      rw [List.append_nil, List.append_nil] at hc
      rw [hc, List.mem_append, List.mem_cons, List.mem_append, List.mem_cons] at h
      obtain h | rfl | h | rfl | h := h
      · exact le_of_mem_quoted h
      · decide
      · exact le_of_mem_quoted h
      · decide
      · exact ih h

theorem entries_texts (member : String × String) (members : List (String × String)) (fuel : Nat)
    (hfuel : members.length < fuel) (rest : List Char) :
    entries text fuel ((compactMembers (texts (member :: members))).toList ++ '\x7d' :: rest) =
      .ok (texts (member :: members), rest) := by
  obtain ⟨fuel, rfl⟩ := Nat.exists_eq_add_one_of_ne_zero (Nat.ne_zero_of_lt hfuel)
  induction members generalizing member fuel with
  | nil =>
    rw [toList_compactMembers_single, entries, bind_ok (name_quoted member.1 _),
      bind_ok (text_quoted member.2 _), bind_ok (goesOn_close rfl (by decide) rest)]
    rfl
  | cons next members ih =>
    simp only [List.length_cons] at hfuel
    obtain ⟨fuel, rfl⟩ := Nat.exists_eq_add_one_of_ne_zero (show fuel ≠ 0 by omega)
    rw [toList_compactMembers_cons, entries, bind_ok (name_quoted member.1 _),
      bind_ok (text_quoted member.2 _), bind_ok (goesOn_comma '\x7d' _), if_pos rfl,
      bind_ok (ih next fuel (by omega))]
    rfl

theorem length_le_compactMembers (member : String × String) (members : List (String × String)) :
    members.length < (compactMembers (texts (member :: members))).toList.length := by
  induction members generalizing member with
  | nil =>
    have htext := congrArg List.length (toList_compactMembers_single member [])
    simp only [List.append_nil, List.length_append, List.length_cons] at htext
    simp only [List.length_nil]
    omega
  | cons next members ih =>
    have htext := congrArg List.length (toList_compactMembers_cons member next members [])
    simp only [List.append_nil, List.length_append, List.length_cons] at htext ⊢
    have hnext := ih next
    omega

theorem mapOf_texts (members : List (String × String)) (rest : List Char) :
    mapOf text ((compact (.object (texts members))).toList ++ rest) =
      .ok (.object (texts members), rest) := by
  have htext : (compact (.object (texts members))).toList ++ rest =
      '\x7b' :: ((compactMembers (texts members)).toList ++ '\x7d' :: rest) := by
    simp [compact]
  rw [htext, mapOf, bind_ok (opening_same rfl (by decide) _)]
  cases members with
  | nil => rw [show (compactMembers (texts [])).toList = [] from rfl, List.nil_append,
      bind_ok (taken_same rfl rest)]; rfl
  | cons member members =>
    obtain ⟨tail, htail⟩ : ∃ tail, (compactMembers (texts (member :: members))).toList ++
        '\x7d' :: rest = '"' :: tail := by
      cases members with
      | nil => exact ⟨_, by rw [toList_compactMembers_single, toList_quoted]⟩
      | cons next members => exact ⟨_, by rw [toList_compactMembers_cons, toList_quoted]⟩
    have hentries := entries_texts member members
      ((compactMembers (texts (member :: members))).toList ++ '\x7d' :: rest).length
      (by have := length_le_compactMembers member members; simp at this ⊢; omega) rest
    rw [htail] at hentries ⊢
    rw [bind_ok (taken_other rfl (by decide) tail), if_neg (by decide)]
    show ((entries text ('"' :: tail).length >>= fun m ↦ pure (.object m)) : Step Json) _ = _
    rw [bind_ok hentries]
    rfl

theorem members_single (key : String) {value : Json} {step : Step Json} {written : List Char}
    (hstep : ∀ rest, step (written ++ rest) = .ok (value, rest)) (fuel : Nat) (rest : List Char) :
    members [(key, step)] (fuel + 1) []
      ((quoted key).toList ++ ':' :: (written ++ '\x7d' :: rest)) = .ok ([(key, value)], rest) := by
  have hlookup : ([(key, step)] : Fields).lookup key = some step := by simp
  rw [members, bind_ok (name_quoted key _), hlookup]
  have hnone : ¬ (([] : List (String × Json)).lookup key).isSome = true := by simp
  simp only [if_neg hnone]
  rw [bind_ok (hstep _), bind_ok (pure_apply _ _), bind_ok (goesOn_close rfl (by decide) rest)]
  rfl

/-- A record of one member is read as it is written. -/
theorem record_single (key : String) {value : Json} {step : Step Json} {written : List Char}
    (hstep : ∀ rest, step (written ++ rest) = .ok (value, rest)) (rest : List Char) :
    record [(key, step)] ('\x7b' :: ((quoted key).toList ++ ':' :: (written ++ '\x7d' :: rest))) =
      .ok ([value], rest) := by
  have hmembers := members_single key hstep
    (key.toList.flatMap escapeChar ++ '"' :: ':' :: (written ++ '\x7d' :: rest)).length rest
  rw [toList_quoted] at hmembers ⊢
  rw [record, bind_ok (taken_other rfl (by decide) _), if_neg (by decide),
    bind_ok (opening_same rfl (by decide) _), bind_ok (taken_other rfl (by decide) _),
    if_neg (by decide)]
  rw [bind_ok (get_apply _), List.length_cons, bind_ok hmembers]
  have hfound : [(key, step)].mapM (fun field ↦ [(key, value)].lookup field.1) = some [value] := by
    simp
  show need ([(key, step)].mapM fun field ↦ [(key, value)].lookup field.1) rest = _
  rw [hfound]
  rfl

end Record

end Json

namespace Snapshot

variable {states : List (String × String)} {key state : String}

/-- Strictly sorted by key. -/
def Sorted (states : List (String × String)) : Prop :=
  states.Pairwise fun a b ↦ a.1 < b.1

theorem Sorted.nodup_keys (h : Sorted states) : (states.map Prod.fst).Nodup :=
  List.pairwise_map.mpr (h.imp String.ne_of_lt)

theorem insert_of_forall_lt (h : ∀ entry ∈ states, entry.1 < key) :
    insert key state states = states ++ [(key, state)] := by
  induction states with
  | nil => rfl
  | cons first rest ih =>
    obtain ⟨hfirst, hrest⟩ := List.forall_mem_cons.mp h
    rw [insert, if_neg (String.lt_asymm hfirst), if_neg (String.ne_of_lt hfirst).symm, ih hrest]
    rfl

theorem mem_of_mem_insert {entry : String × String} (h : entry ∈ insert key state states) :
    entry = (key, state) ∨ entry ∈ states := by
  induction states with
  | nil => exact .inl (List.mem_singleton.mp h)
  | cons first rest ih =>
    rw [insert] at h
    split at h
    · exact List.mem_cons.mp h
    · split at h
      · exact (List.mem_cons.mp h).imp_right (List.mem_cons_of_mem _)
      · obtain rfl | h := List.mem_cons.mp h
        · exact .inr List.mem_cons_self
        · exact (ih h).imp_right (List.mem_cons_of_mem _)

theorem Sorted.insert (h : Sorted states) : Sorted (Snapshot.insert key state states) := by
  induction states with
  | nil => exact List.pairwise_singleton _ _
  | cons first rest ih =>
    obtain ⟨hfirst, hrest⟩ := List.pairwise_cons.mp h
    rw [Snapshot.insert]
    split
    case isTrue hlt =>
      refine List.pairwise_cons.mpr ⟨fun entry hentry ↦ ?_, h⟩
      obtain rfl | hentry := List.mem_cons.mp hentry
      · exact hlt
      · exact String.lt_trans hlt (hfirst entry hentry)
    case isFalse hlt =>
      split
      case isTrue heq =>
        subst heq
        exact List.pairwise_cons.mpr ⟨hfirst, hrest⟩
      case isFalse hne =>
        refine List.pairwise_cons.mpr ⟨fun entry hentry ↦ ?_, ih hrest⟩
        obtain rfl | hentry := mem_of_mem_insert hentry
        · exact String.not_le.mp fun hle ↦ hne (String.le_antisymm hle (String.not_lt.mp hlt))
        · exact hfirst entry hentry

theorem perm_insert (h : key ∉ states.map Prod.fst) :
    (insert key state states).Perm ((key, state) :: states) := by
  induction states with
  | nil => exact .refl _
  | cons first rest ih =>
    obtain ⟨hfirst, hrest⟩ := not_or.mp fun hor ↦ h (List.mem_cons.mpr hor)
    rw [insert, if_neg hfirst]
    split
    · exact .refl _
    · exact ((ih hrest).cons first).trans (.swap (key, state) first rest)

theorem foldlM_put (h : Sorted states) (front : List (String × String))
    (hfront : Sorted (front ++ states)) :
    (Json.Record.texts states).foldlM (fun snapshot (group, value) ↦
      match value with
      | .text state => some (snapshot.put group state)
      | _ => none) (⟨front⟩ : Snapshot) = some ⟨front ++ states⟩ := by
  induction states generalizing front with
  | nil => simp [Json.Record.texts]
  | cons first rest ih =>
    have hlt : ∀ entry ∈ front, entry.1 < first.1 := fun entry hentry ↦
      (List.pairwise_append.mp hfront).2.2 entry hentry first List.mem_cons_self
    have hput : put ⟨front⟩ first.1 first.2 = ⟨front ++ [first]⟩ := by
      rw [put, insert_of_forall_lt hlt]
    have hnext := ih (List.pairwise_cons.mp h).2 (front ++ [first]) (by simpa using hfront)
    simpa [Json.Record.texts, hput] using hnext

theorem ofGroups?_texts (h : Sorted states) :
    ofGroups? (.object (Json.Record.texts states)) = some ⟨states⟩ :=
  foldlM_put h [] h

theorem toList_text (snapshot : Snapshot) :
    snapshot.text.toList = '\x7b' :: ((Json.quoted "actors").toList ++ ':' ::
      ((Json.compact (.object (Json.Record.texts snapshot.states))).toList ++ ['\x7d'])) := by
  simp [text, toJson, Json.compact, Json.compactMembers, Json.Record.texts]

/-- A null character is not read as itself, and a snapshot is written without one. -/
theorem ofText_text (snapshot : Snapshot) :
    Json.Form.ofText snapshot.text = snapshot.text.toList := by
  have hprintable : ∀ c ∈ snapshot.text.toList, 32 ≤ c.toNat := by
    rw [toList_text]
    intro c hc
    simp only [Json.compact, String.toList_append, List.mem_cons, List.mem_append,
      List.not_mem_nil, or_false] at hc
    obtain rfl | hc | rfl | ((hc | hc) | hc) | rfl := hc
    · decide
    · exact Json.le_of_mem_quoted hc
    · decide
    · simp at hc; subst hc; decide
    · exact Json.Record.le_of_mem_texts hc
    · simp at hc; subst hc; decide
    · decide
  refine (List.map_congr_left fun c hc ↦ ?_).trans (List.map_id _)
  rw [Json.Form.ofChar, if_neg]
  · rfl
  · rintro rfl
    exact absurd (hprintable _ hc) (by decide)

/-- A snapshot is read back from its text. -/
theorem parse_text {snapshot : Snapshot} (h : Sorted snapshot.states) :
    parse snapshot.text = .ok snapshot := by
  have hrecord := Json.Record.record_single "actors" (Json.Record.mapOf_texts snapshot.states) []
  have hdocument : document snapshot.text.toList = .ok (snapshot, []) := by
    rw [toList_text]
    simp only [document]
    rw [Json.Record.bind_ok hrecord]
    show Json.Record.need (ofGroups? _) _ = _
    rw [ofGroups?_texts h]
    rfl
  rw [parse, ofText_text, Json.Record.read_of_ok hdocument]
  rfl

end Snapshot

end Dataflow
