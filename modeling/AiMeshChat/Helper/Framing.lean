import AiMeshChat.Helper.Serve
import Mathlib.Tactic.Common

/-!
# The request on its line

`encode_request` of `wire/protocol.py` writes a request as a line of JSON, and `_read_request`
of `remote_exec.py` reads lines until one is a request; each other line is answered with an
error. The length of a line is checked twice: `_read_request` counts the newline,
`decode_request` strips it first.

So the two ends agree but for one length: a request whose JSON is as long as the limit allows
is encoded, and `decode_request` accepts it, but the helper answers its line with an error
(`framing_agrees_iff`).
-/

namespace AiMeshChat.Helper

open Wire

/-! ## What Python can write -/

/-- The text of the `ValueError` for an integer of too many digits. -/
def LONG_INT : String :=
  "Exceeds the limit (" ++ toString INT_MAX_STR_DIGITS ++ " digits) for integer string " ++
    "conversion; use sys.set_int_max_str_digits() to increase the limit"

mutual
/-- Whether `json.dumps` writes a value, with `d` levels of nesting left. -/
def writable : ℕ → Json → Except WireErr Unit
  | _, .int k => if shortInt k.natAbs then .ok () else .error (.value LONG_INT)
  | 0, .arr _ | 0, .obj _ => .error .recursion
  | d + 1, .arr items => writableItems d items
  | d + 1, .obj fields => writableFields d fields
  | _, _ => .ok ()

def writableItems : ℕ → List Json → Except WireErr Unit
  | _, [] => .ok ()
  | d, v :: vs => do
    writable d v
    writableItems d vs

def writableFields : ℕ → List (String × Json) → Except WireErr Unit
  | _, [] => .ok ()
  | d, (_, v) :: kvs => do
    writable d v
    writableFields d kvs
end

mutual
/-- A value of Python: the keys of a dict are distinct, and the text of a float is that of a
float. -/
def PyValue : Json → Prop
  | .float t => IsFloatText t
  | .arr items => PyItems items
  | .obj fields => (fields.map (·.1)).Nodup ∧ PyFields fields
  | _ => True

def PyItems : List Json → Prop
  | [] => True
  | v :: vs => PyValue v ∧ PyItems vs

def PyFields : List (String × Json) → Prop
  | [] => True
  | (_, v) :: kvs => PyValue v ∧ PyFields kvs
end

theorem pyFields_iff {kvs : List (String × Json)} : PyFields kvs ↔ ∀ kv ∈ kvs, PyValue kv.2 := by
  induction kvs with
  | nil => simp [PyFields]
  | cons kv kvs ih => simp [PyFields, ih]

theorem bind_ok {ε : Type} {x y : Except ε Unit} (h : (do x; y) = .ok ()) : x = .ok () ∧ y = .ok () := by
  cases x with
  | error e => cases h
  | ok u => exact ⟨rfl, h⟩

mutual
theorem proper_of_writable : ∀ {d : ℕ} {v : Json}, PyValue v → writable d v = .ok () → Proper d v
  | d, .null, _, _ | d, .bool _, _, _ | d, .str _, _, _ => by cases d <;> trivial
  | d, .int k, _, h => by
    have hshort : shortInt k.natAbs := by
      cases d <;>
      · rw [writable] at h
        split at h
        · next hk => exact hk
        · cases h
    cases d <;> exact hshort
  | d, .float t, hv, _ => by cases d <;> exact hv
  | 0, .arr _, _, h | 0, .obj _, _, h => by cases h
  | d + 1, .arr _, hv, h => properItems_of_writable hv h
  | d + 1, .obj _, hv, h => ⟨hv.1, properFields_of_writable hv.2 h⟩

theorem properItems_of_writable : ∀ {d : ℕ} {vs : List Json}, PyItems vs →
    writableItems d vs = .ok () → ProperItems d vs
  | _, [], _, _ => trivial
  | _, _ :: _, hv, h => ⟨proper_of_writable hv.1 (bind_ok h).1,
      properItems_of_writable hv.2 (bind_ok h).2⟩

theorem properFields_of_writable : ∀ {d : ℕ} {kvs : List (String × Json)}, PyFields kvs →
    writableFields d kvs = .ok () → ProperFields d kvs
  | _, [], _, _ => trivial
  | _, (_, _) :: _, hv, h => ⟨proper_of_writable hv.1 (bind_ok h).1,
      properFields_of_writable hv.2 (bind_ok h).2⟩
end

/-! ## Encoding -/

/-- The keyword arguments of `encode_request`. -/
structure Kwargs where
  fields : List (String × Json)
  nodup : (fields.map (·.1)).Nodup
  free : "command" ∉ fields.map (·.1)
  values : ∀ kv ∈ fields, PyValue kv.2

/-- `{"wire_version": WIRE_VERSION, "command": command, **kwargs}`. -/
def requestObj (command : String) (fields : List (String × Json)) : Json :=
  fields.foldl (fun (obj : Json) kv => obj.set kv.1 kv.2)
    (.obj [("wire_version", .int WIRE_VERSION), ("command", .str command)])

/-- The loop over the schema in `encode_request`. -/
def checkKwargs (command : String) (fields : List (String × Json)) :
    List (String × FieldType) → Except WireErr Unit
  | [] => .ok ()
  | (field, type) :: schema =>
    match fields.lookup field with
    | none => .error (.value ("command " ++ reprStr command ++ " requires field " ++ reprStr field))
    | some v =>
      if isInstance v type then checkKwargs command fields schema
      else .error (.value ("command " ++ reprStr command ++ " field " ++ reprStr field ++
        " must be " ++ type.name ++ ", got " ++ typeName v))

/-- `encode_request`, with `d` levels of nesting left: the line with its newline. -/
def encodeRequest (d : ℕ) (command : String) (kwargs : Kwargs) : Except WireErr (List Char) :=
  if command = "" then .error (.value "command must be a non-empty string")
  else match requestRequired command with
    | none => .error (.value ("unknown command: " ++ command))
    | some schema => do
      checkKwargs command kwargs.fields schema
      writable d (requestObj command kwargs.fields)
      return compact (requestObj command kwargs.fields) ++ ['\n']

/-! ## Reading -/

/-- How `_read_request` ends: at the end of the input, with a request and the lines behind it,
or with an exception. -/
inductive ReadEnd
  | eof
  | request (req : Json) (rest : List (List Char))
  | raised
  deriving DecidableEq

/-- `_read_request` on the lines that `readline` returns: the error frames that it sends, and
its end. -/
def readRequest (d : ℕ) : List (List Char) → List Json × ReadEnd
  | [] => ([], .eof)
  | line :: lines =>
    let next (message : String) := (sendError message :: (readRequest d lines).1, (readRequest d lines).2)
    if MAX_LINE_LENGTH < line.length then
      next ("wire line exceeds " ++ toString MAX_LINE_LENGTH ++ " bytes")
    else match decodeRequest d line with
      | .ok req => ([], .request req lines)
      | .error (.value why) => next why
      | .error .recursion => ([], .raised)

/-! ## The object of a request -/

section Object

theorem get?_foldl_set {fields : List (String × Json)} (hnd : (fields.map (·.1)).Nodup)
    {base : Json} (hbase : base.isDict = true) (key : String) :
    (fields.foldl (fun (obj : Json) kv => obj.set kv.1 kv.2) base).get? key =
      (fields.lookup key).or (base.get? key) := by
  induction fields generalizing base with
  | nil => simp
  | cons kv fields ih =>
    obtain ⟨k, v⟩ := kv
    rw [List.map_cons, List.nodup_cons] at hnd
    rw [List.foldl_cons, ih hnd.2 ((Json.isDict_set base v k).trans hbase)]
    by_cases hk : key = k
    · subst hk
      have hnone : fields.lookup key = none := by
        rw [List.lookup_eq_none_iff]
        intro kv hkv
        simp only [bne_iff_ne, ne_eq]
        rintro rfl
        exact hnd.1 (List.mem_map.mpr ⟨kv, hkv, rfl⟩)
      simp [hnone, Json.get?_set_self v key hbase]
    · simp [List.lookup_cons, beq_false_of_ne hk, Json.get?_set_ne base v hk]

theorem pyValue_set {d v : Json} {key : String} (hd : PyValue d) (hv : PyValue v) :
    PyValue (d.set key v) := by
  cases d with
  | obj fields =>
    obtain ⟨hnd, hfields⟩ := hd
    rw [Json.set]
    split
    · refine ⟨?_, ?_⟩
      · rw [List.map_map]
        refine (List.map_congr_left fun kv _ => ?_).symm ▸ hnd
        rw [Function.comp_apply]
        split
        · next he => exact he.symm
        · rfl
      · rw [pyFields_iff] at hfields ⊢
        intro kv hkv
        obtain ⟨old, hold, rfl⟩ := List.mem_map.mp hkv
        split
        · exact hv
        · exact hfields old hold
    · next hnone =>
      refine ⟨?_, ?_⟩
      · rw [List.map_append, List.nodup_append]
        refine ⟨hnd, List.nodup_singleton _, ?_⟩
        rintro k hk k' hk' rfl
        obtain ⟨kv, hkv, rfl⟩ := List.mem_map.mp hk
        rw [List.map_singleton, List.mem_singleton] at hk'
        rw [Option.not_isSome_iff_eq_none, List.lookup_eq_none_iff] at hnone
        exact absurd hk'.symm (by simpa using hnone kv hkv)
      · rw [pyFields_iff] at hfields ⊢
        intro kv hkv
        rcases List.mem_append.mp hkv with hkv | hkv
        · exact hfields kv hkv
        · rw [List.mem_singleton.mp hkv]
          exact hv
  | _ => exact hd

theorem pyValue_foldl_set {fields : List (String × Json)} (h : ∀ kv ∈ fields, PyValue kv.2)
    {base : Json} (hbase : PyValue base) :
    PyValue (fields.foldl (fun (obj : Json) kv => obj.set kv.1 kv.2) base) := by
  induction fields generalizing base with
  | nil => exact hbase
  | cons kv fields ih =>
    exact ih (fun x hx => h x (List.mem_cons_of_mem _ hx))
      (pyValue_set hbase (h kv List.mem_cons_self))

theorem isDict_foldl_set (fields : List (String × Json)) {base : Json} (hbase : base.isDict = true) :
    (fields.foldl (fun (obj : Json) kv => obj.set kv.1 kv.2) base).isDict = true := by
  induction fields generalizing base with
  | nil => exact hbase
  | cons kv fields ih => exact ih ((Json.isDict_set base kv.2 kv.1).trans hbase)

variable (command : String) (kwargs : Kwargs)

theorem isDict_requestObj (fields : List (String × Json)) :
    (requestObj command fields).isDict = true := isDict_foldl_set fields rfl

theorem pyValue_requestObj : PyValue (requestObj command kwargs.fields) := by
  refine pyValue_foldl_set kwargs.values ⟨?_, trivial, trivial, trivial⟩
  simp

theorem get?_requestObj {field : String} {v : Json} (h : kwargs.fields.lookup field = some v) :
    (requestObj command kwargs.fields).get? field = some v := by
  rw [requestObj, get?_foldl_set kwargs.nodup rfl, h]
  rfl

theorem command_requestObj :
    (requestObj command kwargs.fields).get? "command" = some (.str command) := by
  have hnone : kwargs.fields.lookup "command" = none := by
    rw [List.lookup_eq_none_iff]
    intro kv hkv
    simp only [bne_iff_ne, ne_eq]
    intro he
    exact kwargs.free (he ▸ List.mem_map_of_mem hkv)
  rw [requestObj, get?_foldl_set kwargs.nodup rfl, hnone]
  rfl

theorem checkFields_of_checkKwargs (who : String) {schema : List (String × FieldType)}
    (h : checkKwargs command kwargs.fields schema = .ok ()) :
    checkFields who (requestObj command kwargs.fields) schema = .ok () := by
  induction schema with
  | nil => rfl
  | cons entry schema ih =>
    obtain ⟨field, type⟩ := entry
    rw [checkKwargs] at h
    cases hv : kwargs.fields.lookup field with
    | none =>
      rw [hv] at h
      cases h
    | some v =>
      rw [hv] at h
      dsimp only at h
      split at h
      · next htype =>
        rw [checkFields, get?_requestObj command kwargs hv]
        dsimp only
        rw [if_pos htype]
        exact ih h
      · cases h

end Object

/-! ## The two ends -/

section Line

variable {d : ℕ} {command : String} {kwargs : Kwargs} {line : List Char}

/-- What `encode_request` has checked, and the line that it returns. -/
theorem encodeRequest_ok (h : encodeRequest d command kwargs = .ok line) :
    command ≠ "" ∧ (∃ schema, requestRequired command = some schema ∧
      checkKwargs command kwargs.fields schema = .ok ()) ∧
      Proper d (requestObj command kwargs.fields) ∧
      line = compact (requestObj command kwargs.fields) ++ ['\n'] := by
  unfold encodeRequest at h
  split at h
  · cases h
  · next hne =>
    split at h
    · cases h
    · next schema hschema =>
      cases hcheck : checkKwargs command kwargs.fields schema with
      | error e =>
        rw [hcheck] at h
        cases h
      | ok u =>
        cases hwrite : writable d (requestObj command kwargs.fields) with
        | error e =>
          rw [hcheck, hwrite] at h
          cases h
        | ok u =>
          rw [hcheck, hwrite] at h
          cases h
          exact ⟨hne, ⟨schema, hschema, hcheck⟩,
            proper_of_writable (pyValue_requestObj command kwargs) hwrite, rfl⟩

/-- **A line that was encoded is decoded** to the same object, if its JSON is not too long. -/
theorem decodeRequest_encoded (h : encodeRequest d command kwargs = .ok line)
    (hlen : (compact (requestObj command kwargs.fields)).length ≤ MAX_LINE_LENGTH) :
    decodeRequest d line = .ok (requestObj command kwargs.fields) := by
  obtain ⟨hne, ⟨schema, hschema, hcheck⟩, hproper, rfl⟩ := encodeRequest_ok h
  obtain ⟨fields, hfields⟩ : ∃ fields, requestObj command kwargs.fields = .obj fields := by
    cases hobj : requestObj command kwargs.fields with
    | obj fields => exact ⟨fields, rfl⟩
    | _ =>
      have hdict := isDict_requestObj command kwargs.fields
      rw [hobj] at hdict
      cases hdict
  obtain ⟨cs, hcs⟩ : ∃ cs, compact (requestObj command kwargs.fields) = '\x7b' :: cs ++ ['\x7d'] := by
    rw [hfields]
    exact jsonText_obj _ _ _
  have hstrip : strip (compact (requestObj command kwargs.fields) ++ ['\n']) =
      compact (requestObj command kwargs.fields) := by
    rw [hcs]
    exact strip_braces_append cs rfl
  have hnil : compact (requestObj command kwargs.fields) ≠ [] := by
    rw [hcs]
    simp
  have hparse : parseObject d "wire request" (compact (requestObj command kwargs.fields) ++ ['\n']) =
      .ok (requestObj command kwargs.fields) := by
    rw [parseObject, hstrip, if_neg hnil, if_neg (Nat.not_lt.mpr hlen), loads_compact hproper]
    dsimp only
    rw [if_pos (isDict_requestObj command kwargs.fields)]
  rw [decodeRequest, hparse]
  simp only [bind, Except.bind, command_requestObj]
  rw [if_neg hne, hschema]
  simp only [checkFields_of_checkKwargs command kwargs _ hcheck]
  rfl

/-- `_read_request` answers the line with an error and goes on. -/
def Reports (d : ℕ) (line : List Char) (rest : List (List Char)) : Prop :=
  ∃ message, readRequest d (line :: rest) =
    (sendError message :: (readRequest d rest).1, (readRequest d rest).2)

/-- `decode_request` returns nothing for the line. -/
def Rejects (d : ℕ) (line : List Char) : Prop := ∀ req, decodeRequest d line ≠ .ok req

/-- What the two ends promise of a request that was encoded. -/
def Delivered (d : ℕ) (command : String) (kwargs : Kwargs) (rest : List (List Char)) : Prop :=
  ∀ text, encodeRequest d command kwargs = .ok (text ++ ['\n']) → text.length ≤ MAX_LINE_LENGTH →
    readRequest d ((text ++ ['\n']) :: rest) =
      ([], .request (requestObj command kwargs.fields) rest)

theorem readRequest_long (rest : List (List Char)) (h : MAX_LINE_LENGTH < line.length) :
    readRequest d (line :: rest) =
      (sendError ("wire line exceeds " ++ toString MAX_LINE_LENGTH ++ " bytes") ::
        (readRequest d rest).1, (readRequest d rest).2) := if_pos h

theorem readRequest_short (rest : List (List Char)) (h : ¬ MAX_LINE_LENGTH < line.length) :
    readRequest d (line :: rest) = match decodeRequest d line with
      | .ok req => ([], .request req rest)
      | .error (.value why) => (sendError why :: (readRequest d rest).1, (readRequest d rest).2)
      | .error .recursion => ([], .raised) := if_neg h

theorem delivered_iff (rest : List (List Char)) : Delivered d command kwargs rest ↔
    ((∃ line, encodeRequest d command kwargs = .ok line) →
      (compact (requestObj command kwargs.fields)).length ≠ MAX_LINE_LENGTH) := by
  constructor
  · rintro h ⟨line, hencode⟩ hlen
    obtain ⟨-, -, -, rfl⟩ := encodeRequest_ok hencode
    have hread := h _ hencode hlen.le
    rw [readRequest_long rest (by rw [List.length_append, List.length_singleton]; omega)] at hread
    cases hread
  · intro hne text hencode hlen
    have hlimit := hne ⟨_, hencode⟩
    obtain ⟨-, -, -, htext⟩ := encodeRequest_ok hencode
    obtain rfl := List.append_cancel_right htext
    have hshort : ¬ MAX_LINE_LENGTH < (compact (requestObj command kwargs.fields) ++ ['\n']).length := by
      rw [List.length_append, List.length_singleton]
      omega
    rw [readRequest_short rest hshort, decodeRequest_encoded hencode hlen]

/-- The helper reports the lines that the decoder rejects, but for those that it finds too
long with their newline and for those that are nested too deep. -/
theorem reports_iff (rest : List (List Char)) : (Reports d line rest ↔ Rejects d line) ↔
    if MAX_LINE_LENGTH < line.length then Rejects d line
    else decodeRequest d line ≠ .error .recursion := by
  by_cases hlong : MAX_LINE_LENGTH < line.length
  · rw [if_pos hlong]
    exact iff_true_left ⟨_, readRequest_long rest hlong⟩
  · rw [if_neg hlong, Reports, Rejects, readRequest_short rest hlong]
    cases hdecode : decodeRequest d line with
    | ok req =>
      refine iff_of_true (iff_of_false ?_ fun h => h req rfl) nofun
      rintro ⟨message, h⟩
      cases h
    | error e =>
      cases e with
      | value why => exact iff_of_true (iff_of_true ⟨why, rfl⟩ nofun) nofun
      | recursion =>
        refine iff_of_false (fun h => ?_) fun h => h rfl
        obtain ⟨message, h⟩ := h.mpr nofun
        cases h

/-- **When the two ends agree.**  A request arrives unless its JSON is as long as the limit,
and lines are reported as they are rejected unless a request comes on a line that is too long
with its newline, or one is nested too deep. -/
theorem framing_agrees_iff (d : ℕ) (command : String) (kwargs : Kwargs) (line : List Char)
    (rest : List (List Char)) :
    (Delivered d command kwargs rest ∧ (Reports d line rest ↔ Rejects d line)) ↔
      ((∃ line, encodeRequest d command kwargs = .ok line) →
        (compact (requestObj command kwargs.fields)).length ≠ MAX_LINE_LENGTH) ∧
      if MAX_LINE_LENGTH < line.length then Rejects d line
      else decodeRequest d line ≠ .error .recursion :=
  and_congr (delivered_iff rest) (reports_iff rest)

end Line

/-! ### A request of the greatest length -/

/-- A field of `n` letters. -/
def letters (n : ℕ) : Kwargs where
  fields := [("pad", .str (String.ofList (List.replicate n 'a')))]
  nodup := by simp
  free := by simp
  values := by simp [PyValue]

theorem length_letters (n : ℕ) :
    (compact (requestObj "ping" (letters n).fields)).length = n + 44 := by
  have hchars : (jsonChars (String.ofList (List.replicate n 'a'))).length = n + 2 := by
    have hescape : (List.replicate n 'a').flatMap escapeChar = List.replicate n 'a' := by
      induction n with
      | zero => rfl
      | succ n ih =>
        rw [List.replicate_succ, List.flatMap_cons, ih]
        rfl
    rw [jsonChars_eq, String.toList_ofList, hescape]
    simp
  have hobj : requestObj "ping" (letters n).fields = .obj [("wire_version", .int WIRE_VERSION),
      ("command", .str "ping"), ("pad", .str (String.ofList (List.replicate n 'a')))] := rfl
  have hversion : (compact (.int WIRE_VERSION)).length = 1 := by decide
  have hping : (compact (.str "ping")).length = 6 := by decide
  have hkeys : (jsonChars "wire_version").length = 14 ∧ (jsonChars "command").length = 9 ∧
      (jsonChars "pad").length = 5 := by decide
  rw [hobj]
  simp only [compact, jsonText, membersText, List.length_append, List.length_cons, hchars,
    List.length_nil] at hversion hping ⊢
  omega

theorem encodeRequest_letters (n : ℕ) : encodeRequest 1 "ping" (letters n) =
    .ok (compact (requestObj "ping" (letters n).fields) ++ ['\n']) := by
  have hobj : requestObj "ping" (letters n).fields = .obj [("wire_version", .int WIRE_VERSION),
      ("command", .str "ping"), ("pad", .str (String.ofList (List.replicate n 'a')))] := rfl
  have hversion : shortInt WIRE_VERSION.natAbs := by decide
  have hwrite : writable 1 (requestObj "ping" (letters n).fields) = .ok () := by
    rw [hobj]
    simp [writable, writableFields, hversion, bind, Except.bind]
  rw [encodeRequest, if_neg (by decide), show requestRequired "ping" = some [] from rfl]
  dsimp only
  rw [hwrite]
  rfl

/-- A ping whose JSON has 1,048,576 characters is encoded and decoded, but not read. -/
theorem longest_ping_refused : ¬ ∀ (d : ℕ) (command : String) (kwargs : Kwargs) (line : List Char)
    (rest : List (List Char)),
    Delivered d command kwargs rest ∧ (Reports d line rest ↔ Rejects d line) := by
  intro h
  obtain ⟨hdelivered, -⟩ := h 1 "ping" (letters (MAX_LINE_LENGTH - 44)) [] []
  have hlen : (compact (requestObj "ping" (letters (MAX_LINE_LENGTH - 44)).fields)).length =
      MAX_LINE_LENGTH := (length_letters _).trans (Nat.sub_add_cancel (by decide))
  have hread := hdelivered _ (encodeRequest_letters _) hlen.le
  rw [readRequest_long [] (by rw [List.length_append, List.length_singleton]; omega)] at hread
  cases hread

end AiMeshChat.Helper
