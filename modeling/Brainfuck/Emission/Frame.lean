import Brainfuck.Text.Lines

/-!
The fixed C++ text around a generated program. The head declares a tape of bytes that doubles
its buffer whenever a move would leave it, and opens the main function with one such tape in scope;
the foot closes the main function. Only the length of a new tape varies.

The class keeps the cursor between its two ends after every method: a move grows the buffer before
the cursor moves.
-/

namespace Brainfuck.Emission.Frame

/-- The headers that the tape and its streams need. -/
def headers : List String := [
  "#include <cstddef>",
  "#include <cstring>",
  "#include <iostream>",
  ""]

/-- The buffer, its length, the cursor, and the two ends that the cursor may reach. -/
def fields : List String := [
  "class BrainfuckTape \x7b",
  "private:",
  "    unsigned char* tape;",
  "    std::size_t capacity;",
  "    std::size_t ptr;",
  "    std::size_t min_ptr;",
  "    std::size_t max_ptr;",
  ""]

/-- Doubling on either side. The old cells become the half on the far side of the growth, the new
half is zero, and cursor and ends are moved to match. -/
def growth : List String := [
  "    void expand_tape_left() \x7b",
  "        std::size_t new_capacity = capacity * 2;",
  "        unsigned char* new_tape = new unsigned char[new_capacity];",
  "",
  "        // Old cells go to the upper half, the lower half starts zeroed",
  "        std::memset(new_tape, 0, capacity);",
  "        std::memcpy(new_tape + capacity, tape, capacity);",
  "",
  "        delete[] tape;",
  "        tape = new_tape;",
  "",
  "        // Same logical cell, new physical index",
  "        ptr += capacity;",
  "        max_ptr += capacity;",
  "        capacity = new_capacity;",
  "    \x7d",
  "",
  "    void expand_tape_right() \x7b",
  "        std::size_t new_capacity = capacity * 2;",
  "        unsigned char* new_tape = new unsigned char[new_capacity];",
  "",
  "        // Old cells stay in the lower half, the upper half starts zeroed",
  "        std::memcpy(new_tape, tape, capacity);",
  "        std::memset(new_tape + capacity, 0, capacity);",
  "",
  "        delete[] tape;",
  "        tape = new_tape;",
  "",
  "        max_ptr = new_capacity - 1;",
  "        capacity = new_capacity;",
  "    \x7d",
  ""]

/-- What precedes the length of a new tape: a tape is never copied, and starts by taking its
length. -/
def opening : List String := [
  "    BrainfuckTape(const BrainfuckTape&);",
  "    BrainfuckTape& operator=(const BrainfuckTape&);",
  "",
  "public:",
  "    BrainfuckTape() \x7b"]

/-- What follows the length of a new tape: all cells are zero, the cursor is on the first one, and
the last one is the upper end. -/
def construction : List String := [
  "        tape = new unsigned char[capacity];",
  "        std::memset(tape, 0, capacity);",
  "        ptr = 0;",
  "        min_ptr = 0;",
  "        max_ptr = capacity - 1;",
  "    \x7d",
  "",
  "    ~BrainfuckTape() \x7b",
  "        delete[] tape;",
  "    \x7d",
  ""]

/-- The current cell, to change and to look at. -/
def cellAccess : List String := [
  "    unsigned char& current() \x7b",
  "        return tape[ptr];",
  "    \x7d",
  "",
  "    unsigned char read() const \x7b",
  "        return tape[ptr];",
  "    \x7d",
  ""]

/-- The two moves by one cell. A cursor at the end of the buffer doubles it first. -/
def moves : List String := [
  "    void move_left() \x7b",
  "        if (ptr == min_ptr) \x7b",
  "            expand_tape_left();",
  "        \x7d",
  "        ptr--;",
  "    \x7d",
  "",
  "    void move_right() \x7b",
  "        if (ptr == max_ptr) \x7b",
  "            expand_tape_right();",
  "        \x7d",
  "        ptr++;",
  "    \x7d",
  ""]

/-- The two changes of the current cell by one. -/
def changes : List String := [
  "    void increment() \x7b",
  "        tape[ptr]++;",
  "    \x7d",
  "",
  "    void decrement() \x7b",
  "        tape[ptr]--;",
  "    \x7d",
  ""]

/-- Reading and writing one byte. At the end of the input the cell keeps its value. -/
def streams : List String := [
  "    void input() \x7b",
  "        std::istream::int_type c = std::cin.get();",
  "        if (c != std::istream::traits_type::eof()) \x7b",
  "            tape[ptr] = static_cast<unsigned char>(c);",
  "        \x7d",
  "    \x7d",
  "",
  "    void output() \x7b",
  "        std::cout.put(static_cast<char>(tape[ptr]));",
  "    \x7d",
  "\x7d;",
  ""]

/-- The start of the program, with one tape in scope. -/
def entry : List String := [
  "int main() \x7b",
  "    BrainfuckTape tape;"]

/-- The text before a program's statements, for a tape that starts with `tapeSize` cells. -/
def head (tapeSize : Nat) : String :=
  Text.unlines (headers ++ fields ++ growth ++ opening ++ [s!"        capacity = {tapeSize};"] ++
    construction ++ cellAccess ++ moves ++ changes ++ streams ++ entry)

/-- The text after a program's statements. -/
def foot : String :=
  Text.unlines ["", "    return 0;", "\x7d"]

end Brainfuck.Emission.Frame
