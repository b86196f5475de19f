import MusicMacro.Proofs.Json.Reading

/-! Passing over a value.  The tokens of a value are passed over as a whole, whatever brackets are
open around it and however deep it is nested, so nothing of a value that is skipped matters. -/

namespace MusicMacro.Json

namespace Passage

/-- The rule of a value that is not wanted: only its form counts, and it may be nested as deep as it
likes. -/
def lenient : Rule := ⟨false, none⟩

/-- Goes on behind a value, inside the brackets that are open. -/
def resume (frames : List Frame) (rest : List Token) : Except (Fault × List Token) (List Token) :=
  match behindValue frames with
  | none => .ok rest
  | some (expected, frames) => lenient.pass expected frames rest

theorem resume_cons (frame : Frame) (frames : List Frame) (rest : List Token) :
    resume (frame :: frames) rest = lenient.pass .commaOrEnd (frame :: frames) rest := rfl

variable {expected next : Expected} {frames later : List Frame} {token : Token}

theorem pass_of_step (h : lenient.step expected frames token = .ok (behindValue later))
    (rest : List Token) : lenient.pass expected frames (token :: rest) = resume later rest := by
  rw [Rule.pass, h, resume]
  cases behindValue later <;> rfl

theorem pass_of_step_some (h : lenient.step expected frames token = .ok (some (next, later)))
    (rest : List Token) :
    lenient.pass expected frames (token :: rest) = lenient.pass next later rest := by
  rw [Rule.pass, h]

theorem pass_itemOrEnd (h : token ≠ .closeList) (rest : List Token) :
    lenient.pass .itemOrEnd frames (token :: rest) =
      lenient.pass .value frames (token :: rest) := by
  have hstep : lenient.step .itemOrEnd frames token = lenient.step .value frames token := by
    cases token <;> first | rfl | exact absurd rfl h
  rw [Rule.pass, Rule.pass, hstep]

theorem pass_key (key : String) (rest : List Token) :
    lenient.pass .key frames (.quoted (.ok key) none :: .colon :: rest) =
      lenient.pass .value frames rest := by
  rw [pass_of_step_some rfl, pass_of_step_some rfl]

theorem exists_itemTokens (item : Json) (items : List Json) :
    ∃ token more, itemTokens (item :: items) = token :: more ∧ token ≠ .closeList := by
  obtain ⟨token, more, htokens, htoken⟩ := Reader.exists_toTokens item
  rw [Reader.itemTokens_eq, htokens]
  exact ⟨token, _, rfl, htoken⟩

/-- A number has no flaw, even one that is too large to be read. -/
theorem ofInt_flawless (n : Int) : ∃ reading, Token.ofInt n = .bare reading none := by
  rw [Token.ofInt, Token.ofNumber, Number.scan_ofInt]
  exact ⟨_, rfl⟩

mutual

theorem pass_toTokens : ∀ (json : Json) (frames : List Frame) (rest : List Token),
    lenient.pass .value frames (json.toTokens ++ rest) = resume frames rest
  | .null, _, rest => pass_of_step rfl rest
  | .bool _, _, rest => pass_of_step rfl rest
  | .number value, frames, rest => by
    obtain ⟨reading, htoken⟩ := ofInt_flawless value
    rw [toTokens, htoken]
    exact pass_of_step rfl rest
  | .text _, _, rest => pass_of_step rfl rest
  | .list [], frames, rest => by
    rw [toTokens, itemTokens]
    show lenient.pass .value frames (.openList :: .closeList :: rest) = _
    rw [pass_of_step_some rfl]
    exact pass_of_step rfl rest
  | .list (item :: items), frames, rest => by
    have hitems := pass_itemTokens (item :: items) frames rest (List.cons_ne_nil _ _)
    obtain ⟨token, more, htokens, htoken⟩ := exists_itemTokens item items
    rw [htokens, List.cons_append] at hitems
    rw [toTokens, htokens, List.cons_append, List.append_assoc, pass_of_step_some rfl]
    exact (pass_itemOrEnd htoken _).trans hitems
  | .object [], frames, rest => by
    rw [toTokens, memberTokens]
    show lenient.pass .value frames (.openObject :: .closeObject :: rest) = _
    rw [pass_of_step_some rfl]
    exact pass_of_step rfl rest
  | .object ((key, value) :: members), frames, rest => by
    have hmembers := pass_memberTokens ((key, value) :: members) frames rest (List.cons_ne_nil _ _)
    obtain ⟨more, htokens⟩ := Reader.exists_memberTokens key value members
    rw [htokens, List.cons_append] at hmembers
    rw [toTokens, htokens, List.cons_append, List.append_assoc, pass_of_step_some rfl]
    exact hmembers

theorem pass_itemTokens : ∀ (items : List Json) (frames : List Frame) (rest : List Token),
    items ≠ [] →
    lenient.pass .value (.list :: frames) (itemTokens items ++ .closeList :: rest) =
      resume frames rest
  | [], _, _, h => absurd rfl h
  | [item], frames, rest, _ => by
    rw [itemTokens, pass_toTokens item]
    exact pass_of_step rfl rest
  | item :: next :: items, frames, rest, _ => by
    rw [itemTokens_cons item (List.cons_ne_nil _ _), List.append_assoc, List.cons_append,
      pass_toTokens item, resume_cons, pass_of_step_some rfl]
    exact pass_itemTokens (next :: items) frames rest (List.cons_ne_nil _ _)

theorem pass_memberTokens : ∀ (members : List (String × Json)) (frames : List Frame)
    (rest : List Token), members ≠ [] →
    lenient.pass .key (.object :: frames) (memberTokens members ++ .closeObject :: rest) =
      resume frames rest
  | [], _, _, h => absurd rfl h
  | [(key, value)], frames, rest, _ => by
    rw [memberTokens, List.cons_append, List.cons_append, pass_key, pass_toTokens value]
    exact pass_of_step rfl rest
  | (key, value) :: next :: members, frames, rest, _ => by
    rw [memberTokens_cons key value (List.cons_ne_nil _ _), List.cons_append, List.cons_append,
      pass_key, List.append_assoc, List.cons_append, pass_toTokens value, resume_cons,
      pass_of_step_some rfl]
    exact pass_memberTokens (next :: members) frames rest (List.cons_ne_nil _ _)

end

end Passage

namespace Reader

theorem reads_skip (json : Json) : Reads skip () json.toTokens := by
  intro rest
  have hpass : Passage.lenient.pass .value [] (json.toTokens ++ rest) = .ok rest :=
    Passage.pass_toTokens json [] rest
  refine ⟨Passage.Rule.length_pass hpass, ?_⟩
  rw [skip, passOver]
  split
  · next h => cases h.symm.trans hpass
  · next h =>
    cases h.symm.trans hpass
    rfl

end Reader

end MusicMacro.Json
