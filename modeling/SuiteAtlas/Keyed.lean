namespace SuiteAtlas.Keyed

/-- Sets the value of a key: a new key comes last, a known one keeps its place. -/
def put {α β : Type} [DecidableEq α] (entries : List (α × β)) (key : α) (value : β) :
    List (α × β) :=
  match entries with
  | [] => [(key, value)]
  | (k, v) :: rest => if k = key then (k, value) :: rest else (k, v) :: put rest key value

def ofList {α β : Type} [DecidableEq α] (settings : List (α × β)) : List (α × β) :=
  settings.foldl (fun entries setting => put entries setting.1 setting.2) []

theorem keys_put {α β : Type} [DecidableEq α] (entries : List (α × β)) (key : α) (value : β) :
    (put entries key value).map Prod.fst =
      if key ∈ entries.map Prod.fst then entries.map Prod.fst
      else entries.map Prod.fst ++ [key] := by
  induction entries with
  | nil => simp [put]
  | cons entry rest ih =>
    obtain ⟨k, v⟩ := entry
    by_cases h : k = key
    · simp [put, h]
    · simp only [put, h, if_false, List.map_cons, ih, List.mem_cons, Ne.symm h, false_or]
      split <;> simp

end SuiteAtlas.Keyed
