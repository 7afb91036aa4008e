import VoiceRelay.Query.Client
import Mathlib.Data.List.Basic

/-!
# The commands that callers can ask for

A caller chooses between four fixed commands and a chat text. Whatever the text is, what is sent of
it is one token: its words are escaped and joined by an escaped space, so that no space, bar or line
break of the text can end the field, the record or the line.

**Results.**

- `encodeChars_token`, `encodeWords_token`: escaped words stay one token.
- `command_asked`: every request sends one of the five commands.
-/

namespace VoiceRelay

section Defs

/-- One token of a command: not empty, and without a character that ends a field, a record or a
line. -/
def Token (cs : List Char) : Prop :=
  cs ≠ [] ∧ ∀ c ∈ cs, c ≠ ' ' ∧ c ≠ '|' ∧ c ≠ '\t' ∧ c ≠ '\n' ∧ c ≠ '\r'

/-- The commands that callers can ask for. -/
inductive Asked : String → Prop
  | clients : Asked "clientlist"
  | channels : Asked "channellist"
  | heartbeat : Asked "whoami"
  | farewell : Asked "quit"
  | chat {w : String} : Token w.toList → Asked ("gm msg=" ++ w)

end Defs

section Words

theorem words_ne_nil {cs w : List Char} (hw : w ∈ Text.words cs) : w ≠ [] := by
  have h := (List.mem_filter.1 hw).2
  rintro rfl
  simp at h

end Words

section Escaping

/-- The letter after a backslash ends no token. -/
theorem escapeLetter_token {c letter : Char} (h : Escape.escapeLetter c = some letter) :
    letter ≠ ' ' ∧ letter ≠ '|' ∧ letter ≠ '\t' ∧ letter ≠ '\n' ∧ letter ≠ '\r' := by
  unfold Escape.escapeLetter at h
  split at h <;> cases h <;> decide

/-- A character that is written as it stands ends no token. -/
theorem plain_token {c : Char} (h : Escape.escapeLetter c = none) :
    c ≠ ' ' ∧ c ≠ '|' ∧ c ≠ '\t' ∧ c ≠ '\n' ∧ c ≠ '\r' := by
  refine ⟨?_, ?_, ?_, ?_, ?_⟩ <;>
  · rintro rfl
    simp [Escape.escapeLetter] at h

theorem encodeChar_ne_nil (c : Char) : Escape.encodeChar c ≠ [] := by
  unfold Escape.encodeChar
  split <;> simp

/-- No character of an escaped value ends a token. -/
theorem mem_encodeChars {cs : List Char} {d : Char} (h : d ∈ Escape.encodeChars cs) :
    d ≠ ' ' ∧ d ≠ '|' ∧ d ≠ '\t' ∧ d ≠ '\n' ∧ d ≠ '\r' := by
  obtain ⟨c, _, hd⟩ := List.mem_flatMap.1 h
  unfold Escape.encodeChar at hd
  split at hd
  · next letter hl =>
    simp only [List.mem_cons, List.not_mem_nil, or_false] at hd
    rcases hd with rfl | rfl
    · decide
    · exact escapeLetter_token hl
  · next hl =>
    obtain rfl : d = c := by simpa using hd
    exact plain_token hl

theorem encodeChars_token {cs : List Char} (h : cs ≠ []) : Token (Escape.encodeChars cs) := by
  refine ⟨?_, fun d hd => mem_encodeChars hd⟩
  cases cs with
  | nil => exact absurd rfl h
  | cons c cs => simp [Escape.encodeChars, encodeChar_ne_nil]

/-- Tokens joined by the escaped space are one token. -/
theorem join_token {ws : List (List Char)} (hne : ws ≠ []) (h : ∀ w ∈ ws, Token w) :
    Token (Text.join ['\\', 's'] ws) := by
  induction ws with
  | nil => exact absurd rfl hne
  | cons w ws ih =>
    cases ws with
    | nil => exact h w (by simp)
    | cons v ws =>
      have hw := h w (by simp)
      have hrest := ih (by simp) (fun u hu => h u (by simp [hu]))
      refine ⟨by simp [Text.join, hw.1], fun c hc => ?_⟩
      simp only [Text.join, List.mem_append, List.mem_cons, List.not_mem_nil, or_false] at hc
      rcases hc with (hc | rfl | rfl) | hc
      · exact hw.2 c hc
      · decide
      · decide
      · exact hrest.2 c hc

/-- **A chat text stays one token**, whatever it holds. -/
theorem encodeWords_token {text w : String} (h : Escape.encodeWords text = some w) :
    Token w.toList := by
  unfold Escape.encodeWords at h
  split at h
  · cases h
  · next ws hne =>
    cases h
    rw [String.toList_ofList]
    refine join_token (by simpa using hne) fun v hv => ?_
    obtain ⟨u, hu, rfl⟩ := List.mem_map.1 hv
    exact encodeChars_token (words_ne_nil hu)

/-- Every request sends one of the five commands. -/
theorem command_asked {r : Request} {text : String} (h : r.command = some text) : Asked text := by
  cases r with
  | occupants => cases h; exact .clients
  | channels => cases h; exact .channels
  | say chat =>
    obtain ⟨w, hw, rfl⟩ := Option.map_eq_some_iff.1 h
    exact .chat (encodeWords_token hw)
  | ping => cases h; exact .heartbeat
  | quit => cases h; exact .farewell

/-- Only the request to quit sends the farewell. -/
theorem command_ne_quit {r : Request} {text : String} (h : r.command = some text)
    (hr : r ≠ .quit) : text ≠ "quit" := by
  cases r with
  | occupants => cases h; decide
  | channels => cases h; decide
  | say chat =>
    obtain ⟨w, _, rfl⟩ := Option.map_eq_some_iff.1 h
    intro hq
    have := congrArg String.toList hq
    simp at this
  | ping => cases h; decide
  | quit => exact absurd rfl hr

end Escaping

section Breaks

theorem not_breaks {text : String} (h : ∀ c ∈ text.toList, c ≠ '\n' ∧ c ≠ '\r') :
    Line.breaks text = false := by
  unfold Line.breaks
  rw [List.any_eq_false]
  intro c hc
  obtain ⟨hn, hr⟩ := h c hc
  simp [hn, hr]

theorem breaks_append (a b : String) :
    Line.breaks (a ++ b) = (Line.breaks a || Line.breaks b) := by
  unfold Line.breaks
  rw [String.toList_append, List.any_append]

theorem encode_unbroken (value : String) : Line.breaks (Escape.encode value) = false := by
  refine not_breaks fun c hc => ?_
  rw [Escape.encode, String.toList_ofList] at hc
  exact (mem_encodeChars hc).2.2.2

theorem digits_unbroken (n : Nat) : Line.breaks (.ofList (Decimal.digits n)) = false := by
  refine not_breaks fun c hc => ?_
  rw [String.toList_ofList] at hc
  have hdigit := Decimal.digits_isDigit n c hc
  constructor
  all_goals
    rintro rfl
    cases hdigit

/-- The command that logs in is one line, whatever name and password are. -/
theorem login_unbroken (k : Credentials) : Line.breaks k.login = false := by
  rw [Credentials.login, breaks_append, breaks_append, breaks_append, encode_unbroken,
    encode_unbroken]
  rfl

theorem use_unbroken (k : Credentials) : Line.breaks k.use = false := by
  rw [Credentials.use, breaks_append, digits_unbroken]
  rfl

end Breaks

end VoiceRelay
